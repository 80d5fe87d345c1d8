import Mathlib.Algebra.Ring.Rat
import PrimeRl.Models.MixtureOfExperts

/-!
# What a mixture-of-experts layer computes

For each token the layer adds to the shared expert what the token's own experts give,
each weighted with the token's own scores. Sorting, blocks and scattering leave no
trace, so no other token has a part in it.
-/

namespace PrimeRl.Models.Moe

open Exchange Dispatch

variable {Score Row : Type}

section Meaning

variable [Zero Score] [Add Score] [Mul Score] [Div Score]

/-- The weights of a token's experts. -/
def TokenChoiceTopKRouter.weights (router : TokenChoiceTopKRouter Score Row) (row : Row)
    (chosen : List Nat) : List Score :=
  router.weigh (chosen.map ((router.scores row).getD · 0))

theorem weigh_length (router : TokenChoiceTopKRouter Score Row) (topScores : List Score) :
    (router.weigh topScores).length = topScores.length := by
  unfold TokenChoiceTopKRouter.weigh
  split <;> simp

theorem weights_length (router : TokenChoiceTopKRouter Score Row) (row : Row) (chosen : List Nat) :
    (router.weights row chosen).length = chosen.length := by
  rw [TokenChoiceTopKRouter.weights, weigh_length, List.length_map]

/-- What one expert gives for a token. -/
def MoE.routed (moe : MoE Score Row) (row : Row) (expert : Nat) (weight : Score) : Row :=
  if moe.scoreBeforeExperts then moe.experts expert (moe.scaled row weight)
  else moe.scaled (moe.experts expert row) weight

/-- The probability mass of a token's experts, before they are normed. -/
def TokenChoiceTopKRouter.confidence (router : TokenChoiceTopKRouter Score Row) (row : Row)
    (chosen : List Nat) : Score :=
  match router.scoreFunc with
  | .softmax => (chosen.map ((router.scores row).getD · 0)).sum
  | .sigmoid =>
      ((chosen.map ((router.scores row).getD · 0)).map
        (· / ((router.scores row).sum + router.tiny))).sum

omit [Mul Score] [Div Score] in
/-- The experts that a router picks for a token. -/
def TokenChoiceTopKRouter.pick (router : TokenChoiceTopKRouter Score Row)
    (expertBias : Option (List Score)) (row : Row) : List Nat :=
  match expertBias with
  | some bias =>
      (router.topk (List.zipWith (· + ·) (router.scores row) bias) router.topK).map Prod.snd
  | none => (router.topk (router.scores row) router.topK).map Prod.snd

/-- The experts of each token: replayed, in turn, or picked. -/
def TokenChoiceTopKRouter.choices (router : TokenChoiceTopKRouter Score Row) (x : List Row)
    (expertBias : Option (List Score)) (routedExperts : Option (List (List Nat))) :
    List (List Nat) :=
  match routedExperts with
  | some routed => routed
  | none =>
      if router.forceBalanced then router.balanced x.length
      else x.map (router.pick expertBias)

variable [AddCommMonoid Row]

/-- What a layer means for a token with its experts. -/
def MoE.mixture (moe : MoE Score Row) (row : Row) (chosen : List Nat) : Row :=
  moe.shared row + (List.zipWith (moe.routed row) chosen (moe.router.weights row chosen)).sum

end Meaning

/-! ## The sorted tasks -/

/-- The experts of the sorted tasks are the blocks of the counts. -/
theorem sorted_experts {numExperts : Nat} {selected : List Nat}
    (inside : ∀ expert ∈ selected, expert < numExperts) :
    Owners.expand 0 (histogram numExperts selected) =
      (Argsort.argsort (selected.map Int.ofNat)).map (selected.getD · 0) := by
  obtain ⟨sorted, isSorted⟩ : ∃ sorted, sorted =
    (Argsort.argsort (selected.map Int.ofNat)).map (selected.getD · 0) := ⟨_, rfl⟩
  have values : sorted.map Int.ofNat = Argsort.inOrder (selected.map Int.ofNat) := by
    rw [isSorted, List.map_map, Argsort.inOrder]
    apply List.map_congr_left
    intro place _
    exact (List.getD_map selected 0 Int.ofNat).symm
  have increasing : sorted.Pairwise (· ≤ ·) := by
    have ordered := Argsort.in_order_sorted (selected.map Int.ofNat)
    rw [← values, List.pairwise_map] at ordered
    exact ordered.imp fun below => Int.ofNat_le.mp below
  have same : sorted.Perm selected := by
    have reordered := (Argsort.argsort_perm (selected.map Int.ofNat)).map (selected.getD · 0)
    rw [List.length_map, Argsort.range_getD] at reordered
    rw [isSorted]
    exact reordered
  have counts : histogram numExperts selected = histogram numExperts sorted := by
    unfold histogram
    apply List.map_congr_left
    intro owner _
    exact (same.count_eq owner).symm
  rw [← isSorted, counts]
  exact expand_histogram increasing fun expert listed => inside expert (same.mem_iff.mp listed)

section SortedTasks

variable [AddCommMonoid Row]

/-- Running the experts on sorted rows runs each task's own expert. -/
theorem run_experts_sorted {numExperts : Nat} {selected : List Nat} (expert : Nat → Row → Row)
    (row : Nat → Row) (inside : ∀ expert ∈ selected, expert < numExperts) :
    runExpertsForLoop expert ((Argsort.argsort (selected.map Int.ofNat)).map row)
        (histogram numExperts selected) =
      (Argsort.argsort (selected.map Int.ofNat)).map
        (fun task => expert (selected.getD task 0) (row task)) := by
  have tasks : (Argsort.argsort (selected.map Int.ofNat)).length = selected.length := by
    rw [(Argsort.argsort_perm _).length_eq, List.length_range, List.length_map]
  unfold runExpertsForLoop
  simp only [histogram_sum inside, List.length_map, tasks, Nat.sub_self, List.replicate_zero,
    List.append_nil]
  rw [List.take_of_length_le (by rw [List.length_map, tasks]), work_by_block, sorted_experts inside,
    List.zipWith_map, List.zipWith_self]

theorem run_routed_sorted [Zero Score] (moe : MoE Score Row) (x : List Row) {topScores : List (List Score)}
    {selected : List (List Nat)}
    (inside : ∀ expert ∈ selected.flatten, expert < moe.router.numExperts) :
    moe.runRoutedExperts x
        (tokenReorderer moe.router.numExperts moe.router.topK topScores selected) =
      (Argsort.argsort (selected.flatten.map Int.ofNat)).map (fun task =>
        moe.routed (x.getD (task / moe.router.topK) 0) (selected.flatten.getD task 0)
          (topScores.flatten.getD task 0)) := by
  unfold MoE.runRoutedExperts tokenReorderer MoE.routed
  cases moe.scoreBeforeExperts with
  | true =>
    simp only [if_true, List.map_map]
    rw [List.zipWith_map, List.zipWith_self, run_experts_sorted _ _ inside]
    rfl
  | false =>
    simp only [Bool.false_eq_true, if_false, List.map_map]
    rw [run_experts_sorted _ _ inside, List.zipWith_map, List.zipWith_self]
    rfl

/-- Reordering, running and scattering give each token the sum over its own tasks. -/
theorem scatter_routed [Zero Score] (moe : MoE Score Row) (x base : List Row)
    {topScores : List (List Score)} {selected : List (List Nat)} (tokens : base.length = x.length)
    (picks : selected.length = x.length) (scored : topScores.length = x.length)
    (picked : Rectangular moe.router.topK selected) (weighed : Rectangular moe.router.topK topScores)
    (inside : ∀ expert ∈ selected.flatten, expert < moe.router.numExperts) :
    scatterAdd base
        ((tokenReorderer moe.router.numExperts moe.router.topK topScores
            selected).tokenIndicesExpertsSorted.zip
          (moe.runRoutedExperts x
            (tokenReorderer moe.router.numExperts moe.router.topK topScores selected))) =
      List.zipWith (· + ·) base
        (List.zipWith (fun row pick => (List.zipWith (moe.routed row) pick.1 pick.2).sum) x
          (selected.zip topScores)) := by
  have total : selected.flatten.length = base.length * moe.router.topK := by
    rw [flatten_length picked, picks, tokens]
  have all : (Argsort.argsort (selected.flatten.map Int.ofNat)).Perm
      (List.range (base.length * moe.router.topK)) := by
    rw [← total, ← List.length_map (f := Int.ofNat)]
    exact Argsort.argsort_perm _
  rw [run_routed_sorted moe x inside]
  change scatterAdd base (((Argsort.argsort (selected.flatten.map Int.ofNat)).map
    (· / moe.router.topK)).zip _) = _
  rw [List.zip_map']
  apply List.ext_getElem?
  intro token
  rw [scatter_add_tasks base moe.router.topK _ _ token all]
  by_cases present : token < base.length
  · have inRows : token < x.length := tokens ▸ present
    have inPicks : token < selected.length := picks ▸ inRows
    have inScores : token < topScores.length := scored ▸ inRows
    have pair : (selected.zip topScores)[token]? = some (selected[token], topScores[token]) :=
      List.getElem?_zip_eq_some.mpr
        ⟨List.getElem?_eq_getElem inPicks, List.getElem?_eq_getElem inScores⟩
    have read : (List.zipWith (· + ·) base
        (List.zipWith (fun row pick => (List.zipWith (moe.routed row) pick.1 pick.2).sum) x
          (selected.zip topScores)))[token]? =
        some (base[token] +
          (List.zipWith (moe.routed x[token]) selected[token] topScores[token]).sum) := by
      rw [List.getElem?_zipWith, List.getElem?_zipWith, pair, List.getElem?_eq_getElem present,
        List.getElem?_eq_getElem inRows]
    rw [read, List.getElem?_eq_getElem present, Option.map_some]
    congr 2
    rw [zip_with_range (moe.routed x[token]) 0 0 (picked _ (List.getElem_mem inPicks))
      (weighed _ (List.getElem_mem inScores))]
    congr 1
    apply List.map_congr_left
    intro slot listed
    have small := List.mem_range.mp listed
    have owner : (token * moe.router.topK + slot) / moe.router.topK = token := by
      rw [Nat.mul_comm, Nat.mul_add_div (Nat.zero_lt_of_lt small), Nat.div_eq_of_lt small,
        Nat.add_zero]
    rw [owner, List.getD_eq_getElem _ _ inRows, List.getD_eq_getElem?_getD,
      flatten_get picked token small, List.getElem?_eq_getElem inPicks,
      List.getD_eq_getElem?_getD (l := topScores.flatten), flatten_get weighed token small,
      List.getElem?_eq_getElem inScores]
    rfl
  · rw [List.getElem?_eq_none (by omega), List.getElem?_eq_none (by
      rw [List.length_zipWith, List.length_zipWith]
      omega)]
    rfl

end SortedTasks

/-! ## The choices -/

section Choices

variable [Zero Score] [Add Score] [Mul Score] [Div Score]

/-- Experts for each token that exist and are as many as asked for. -/
structure TokenChoiceTopKRouter.Chosen (router : TokenChoiceTopKRouter Score Row) (x : List Row)
    (chosen : List (List Nat)) : Prop where
  tokens : chosen.length = x.length
  picked : Rectangular router.topK chosen
  inside : ∀ picks ∈ chosen, ∀ expert ∈ picks, expert < router.numExperts

/-- What torch gives for a row: as many scores as experts, and of these the largest. -/
structure TokenChoiceTopKRouter.Fits (router : TokenChoiceTopKRouter Score Row)
    (expertBias : Option (List Score)) : Prop where
  width : ∀ row, (router.scores row).length = router.numExperts
  enough : router.topK ≤ router.numExperts
  biased : ∀ bias, expertBias = some bias → bias.length = router.numExperts
  largest : ∀ scores : List Score, router.topK ≤ scores.length →
    (router.topk scores router.topK).length = router.topK ∧
      ∀ found ∈ router.topk scores router.topK, scores[found.2]? = some found.1

variable {router : TokenChoiceTopKRouter Score Row} {expertBias : Option (List Score)}

omit [Zero Score] [Mul Score] [Div Score] in
theorem pick_fits (fits : router.Fits expertBias) (row : Row) :
    (router.pick expertBias row).length = router.topK ∧
      ∀ expert ∈ router.pick expertBias row, expert < router.numExperts := by
  have found : ∀ scores : List Score, scores.length = router.numExperts →
      ((router.topk scores router.topK).map Prod.snd).length = router.topK ∧
        ∀ expert ∈ (router.topk scores router.topK).map Prod.snd, expert < router.numExperts := by
    intro scores width
    obtain ⟨count, listed⟩ := fits.largest scores (width ▸ fits.enough)
    refine ⟨by rw [List.length_map, count], fun expert member => ?_⟩
    obtain ⟨entry, inTop, rfl⟩ := List.mem_map.mp member
    obtain ⟨inside, _⟩ := List.getElem?_eq_some_iff.mp (listed entry inTop)
    omega
  unfold TokenChoiceTopKRouter.pick
  cases biased : expertBias with
  | none => exact found _ (fits.width row)
  | some bias =>
    refine found _ ?_
    rw [List.length_zipWith, fits.width, fits.biased bias biased, Nat.min_self]

omit [Zero Score] [Add Score] [Mul Score] [Div Score] in
theorem balanced_chosen (fits : router.Fits expertBias) (x : List Row) :
    router.Chosen x (router.balanced x.length) := by
  have whole : ((List.range (x.length * router.topK)).map (· % router.numExperts)).length =
      x.length * router.topK := by
    rw [List.length_map, List.length_range]
  refine ⟨cut_length _ _ _, cut_even whole, fun picks member expert listed => ?_⟩
  have inAll := List.mem_flatten.mpr ⟨picks, member, listed⟩
  rw [TokenChoiceTopKRouter.balanced, cut_flatten whole] at inAll
  obtain ⟨task, inRange, rfl⟩ := List.mem_map.mp inAll
  have some_ : 0 < router.topK := by
    apply Nat.pos_of_ne_zero
    intro none_
    simp [none_] at inRange
  exact Nat.mod_lt _ (some_.trans_le fits.enough)

omit [Zero Score] [Mul Score] [Div Score] in
theorem choices_chosen (fits : router.Fits expertBias) (x : List Row)
    (routedExperts : Option (List (List Nat)))
    (replayed : ∀ routed, routedExperts = some routed → router.Chosen x routed) :
    router.Chosen x (router.choices x expertBias routedExperts) := by
  unfold TokenChoiceTopKRouter.choices
  cases replay : routedExperts with
  | some routed => exact replayed routed replay
  | none =>
    simp only
    split
    · exact balanced_chosen fits x
    · refine ⟨List.length_map _, ?_, ?_⟩
      · intro picks member
        obtain ⟨row, _, rfl⟩ := List.mem_map.mp member
        exact (pick_fits fits row).1
      · intro picks member
        obtain ⟨row, _, rfl⟩ := List.mem_map.mp member
        exact (pick_fits fits row).2

omit [Add Score] [Mul Score] [Div Score] in
theorem gather_chosen (fits : router.Fits expertBias) {x : List Row} {chosen : List (List Nat)}
    (present : router.Chosen x chosen) :
    gather (x.map router.scores) chosen =
      some (List.zipWith (fun row picks => picks.map ((router.scores row).getD · 0)) x chosen) := by
  unfold gather
  rw [if_pos, List.zipWith_map_left]
  refine ⟨by rw [List.length_map, present.tokens], fun pair listed expert member => ?_⟩
  obtain ⟨inScores, inChosen⟩ := List.of_mem_zip listed
  obtain ⟨row, _, same⟩ := List.mem_map.mp inScores
  rw [← same, fits.width]
  exact present.inside _ inChosen expert member

omit [Mul Score] [Div Score] in
/-- However experts are chosen, their scores are those that the gate gives. -/
theorem select_choices (fits : router.Fits expertBias) (x : List Row)
    (routedExperts : Option (List (List Nat)))
    (replayed : ∀ routed, routedExperts = some routed → router.Chosen x routed) :
    router.select (x.map router.scores) expertBias routedExperts =
      some (List.zipWith (fun row picks => picks.map ((router.scores row).getD · 0)) x
          (router.choices x expertBias routedExperts),
        router.choices x expertBias routedExperts) := by
  have present := choices_chosen fits x routedExperts replayed
  have gathered := gather_chosen fits present
  cases replay : routedExperts with
  | some routed =>
    rw [replay] at gathered
    simp only [TokenChoiceTopKRouter.select, TokenChoiceTopKRouter.choices] at gathered ⊢
    rw [gathered, Option.map_some]
  | none =>
    rw [replay] at gathered
    cases turns : router.forceBalanced with
    | true =>
      simp only [TokenChoiceTopKRouter.select, TokenChoiceTopKRouter.choices, turns, if_true,
        List.length_map] at gathered ⊢
      rw [gathered, Option.map_some]
    | false =>
      cases biased : expertBias with
      | some bias =>
        rw [biased] at gathered
        simp only [TokenChoiceTopKRouter.select, TokenChoiceTopKRouter.choices, turns,
          Bool.false_eq_true, if_false, List.map_map] at gathered ⊢
        change (gather (x.map router.scores) (x.map (router.pick (some bias)))).map _ = _
        rw [gathered, Option.map_some]
        rfl
      | none =>
        simp only [TokenChoiceTopKRouter.select, TokenChoiceTopKRouter.choices, turns,
          Bool.false_eq_true, if_false, TokenChoiceTopKRouter.pick, List.map_map,
          Function.comp_def, List.zipWith_map_right, List.zipWith_self]
        congr 2
        apply List.map_congr_left
        intro row _
        apply List.map_congr_left
        intro found listed
        have scored := (fits.largest (router.scores row)
          (fits.width row ▸ fits.enough)).2 found listed
        rw [List.getD_eq_getElem?_getD, scored, Option.getD_some]

theorem router_forward (fits : router.Fits expertBias) (x : List Row)
    (routedExperts : Option (List (List Nat)))
    (replayed : ∀ routed, routedExperts = some routed → router.Chosen x routed) :
    router.forward x expertBias routedExperts =
      some {
        topScores := List.zipWith router.weights x (router.choices x expertBias routedExperts)
        selectedExpertsIndices := router.choices x expertBias routedExperts
        numTokensPerExpert := histogram router.numExperts
          (router.choices x expertBias routedExperts).flatten
        routingConfidenceSum :=
          (List.zipWith router.confidence x (router.choices x expertBias routedExperts)).sum } := by
  have asked : routedExperts.any (fun routed =>
      routed.any (fun chosen => chosen.length != router.topK)) = false := by
    cases replay : routedExperts with
    | none => rfl
    | some routed =>
      have even := (replayed routed replay).picked
      simp only [Option.any_some, List.any_eq_false, bne_iff_ne, ne_eq, Decidable.not_not]
      exact even
  unfold TokenChoiceTopKRouter.forward
  rw [asked, if_neg Bool.false_ne_true]
  simp only [select_choices fits x routedExperts replayed, Option.map_some, List.map_zipWith]
  congr 2
  unfold selectedProbabilityMassSum TokenChoiceTopKRouter.confidence
  cases router.scoreFunc with
  | softmax => simp only [List.map_zipWith]
  | sigmoid => simp only [List.zipWith_map_left, zip_with_again]

end Choices

/-! ## The layer -/

section Layer

variable [Zero Score] [Add Score] [Mul Score] [Div Score] [AddCommMonoid Row]
variable {moe : MoE Score Row} {x : List (List Row)}

theorem zip_mixture (moe : MoE Score Row) (rows : List Row) (chosen : List (List Nat)) :
    List.zipWith (· + ·) (rows.map moe.shared)
        (List.zipWith (fun row pick => (List.zipWith (moe.routed row) pick.1 pick.2).sum) rows
          (chosen.zip (List.zipWith moe.router.weights rows chosen))) =
      List.zipWith moe.mixture rows chosen := by
  induction rows generalizing chosen with
  | nil => rfl
  | cons row rows inductionHypothesis =>
    cases chosen with
    | nil => rfl
    | cons picks chosen =>
      simp only [List.map_cons, List.zipWith_cons_cons, List.zip_cons_cons, inductionHypothesis,
        MoE.mixture]

/-- The layer's result is that of each token by itself. -/
theorem moe_forward (fits : moe.router.Fits moe.expertBias) (buffers : Buffers Score)
    (routedExperts : Option (List (List (List Nat))))
    (replayed : ∀ routed, routedExperts = some routed →
      moe.router.Chosen x.flatten routed.flatten) :
    let chosen := moe.router.choices x.flatten moe.expertBias (routedExperts.map List.flatten)
    moe.forward buffers x routedExperts =
      some (cut x.length (x.headD []).length (List.zipWith moe.mixture x.flatten chosen),
        { tokensPerExpert := List.zipWith (· + ·) buffers.tokensPerExpert
            (histogram moe.router.numExperts chosen.flatten)
          routingConfidenceSum := buffers.routingConfidenceSum +
            (List.zipWith moe.router.confidence x.flatten chosen).sum }) := by
  intro chosen
  have asked : ∀ routed, routedExperts.map List.flatten = some routed →
      moe.router.Chosen x.flatten routed := by
    intro routed replay
    obtain ⟨given, isGiven, rfl⟩ := Option.map_eq_some_iff.mp replay
    exact replayed given isGiven
  have present : moe.router.Chosen x.flatten chosen := choices_chosen fits x.flatten _ asked
  have weighed : Rectangular moe.router.topK
      (List.zipWith moe.router.weights x.flatten chosen) := by
    intro weights member
    obtain ⟨token, inside, rfl⟩ := List.getElem_of_mem member
    rw [List.getElem_zipWith, weights_length]
    exact present.picked _ (List.getElem_mem _)
  unfold MoE.forward
  simp only [router_forward fits x.flatten _ asked, Option.map_some]
  rw [scatter_routed moe x.flatten (x.flatten.map moe.shared) (List.length_map _) present.tokens
    (by rw [List.length_zipWith, present.tokens, Nat.min_self]) present.picked weighed
    (fun expert member => by
      obtain ⟨picks, listed, inPicks⟩ := List.mem_flatten.mp member
      exact present.inside picks listed expert inPicks)]
  rw [zip_mixture]

/-- A mixture-of-experts layer, its experts replayed, in turn or picked. Every token gets its own
mixture, in the shape of the batch, and the buffers count every task for its expert. -/
theorem moe_forward_mixture (moe : MoE Score Row) (buffers : Buffers Score) (x : List (List Row))
    (routedExperts : Option (List (List (List Nat))))
    (fits : moe.router.Fits moe.expertBias) (even : Rectangular (x.headD []).length x)
    (counted : buffers.tokensPerExpert.length = moe.router.numExperts)
    (replayed : ∀ routed, routedExperts = some routed →
      moe.router.Chosen x.flatten routed.flatten) :
    ∃ out after, moe.forward buffers x routedExperts = some (out, after) ∧
      out.map List.length = x.map List.length ∧
      out.flatten = List.zipWith moe.mixture x.flatten
        (moe.router.choices x.flatten moe.expertBias (routedExperts.map List.flatten)) ∧
      (∀ expert < moe.router.numExperts, after.tokensPerExpert[expert]? =
        buffers.tokensPerExpert[expert]?.map (· + (moe.router.choices x.flatten moe.expertBias
          (routedExperts.map List.flatten)).flatten.count expert)) ∧
      after.tokensPerExpert.sum =
        buffers.tokensPerExpert.sum + x.flatten.length * moe.router.topK := by
  have asked : ∀ routed, routedExperts.map List.flatten = some routed →
      moe.router.Chosen x.flatten routed := by
    intro routed replay
    obtain ⟨given, isGiven, rfl⟩ := Option.map_eq_some_iff.mp replay
    exact replayed given isGiven
  have present := choices_chosen fits x.flatten _ asked
  obtain ⟨chosen, isChosen⟩ : ∃ chosen, chosen =
    moe.router.choices x.flatten moe.expertBias (routedExperts.map List.flatten) := ⟨_, rfl⟩
  have ran := moe_forward fits buffers routedExperts replayed
  simp only [← isChosen] at ran present ⊢
  have whole : (List.zipWith moe.mixture x.flatten chosen).length =
      x.length * (x.headD []).length := by
    rw [List.length_zipWith, present.tokens, Nat.min_self, flatten_length even]
  have known : ∀ expert ∈ chosen.flatten, expert < moe.router.numExperts := by
    intro expert member
    obtain ⟨picks, listed, inPicks⟩ := List.mem_flatten.mp member
    exact present.inside picks listed expert inPicks
  refine ⟨_, _, ran, ?_, cut_flatten whole, fun expert inside => ?_, ?_⟩
  · rw [List.map_congr_left (cut_even whole), List.map_congr_left even, List.map_const',
      List.map_const', cut_length]
  · rw [List.getElem?_zipWith, histogram, List.getElem?_map, List.getElem?_range inside,
      List.getElem?_eq_getElem (counted ▸ inside)]
    rfl
  · rw [← List.sum_add_sum_eq_sum_zipWith_of_length_eq _ _ (by simp [counted, histogram]),
      histogram_sum known, flatten_length present.picked, present.tokens]

/-- Without replay and without forced turns a token's result is its own, whatever else is in the
batch, and replaying the router's own picks changes neither the result nor the buffers. -/
theorem moe_replay_own_picks (moe : MoE Score Row) (buffers : Buffers Score) (x : List (List Row))
    (fits : moe.router.Fits moe.expertBias) (even : Rectangular (x.headD []).length x)
    (natural : moe.router.forceBalanced = false) :
    ∃ after,
      moe.forward buffers x none =
        some (x.map (List.map fun row => moe.mixture row (moe.router.pick moe.expertBias row)),
          after) ∧
      moe.forward buffers x (some (x.map (List.map (moe.router.pick moe.expertBias)))) =
        moe.forward buffers x none := by
  have own : moe.router.choices x.flatten moe.expertBias none =
      x.flatten.map (moe.router.pick moe.expertBias) := by
    simp [TokenChoiceTopKRouter.choices, natural]
  have replayed := choices_chosen fits x.flatten none (by simp)
  have plain := moe_forward (x := x) fits buffers none (by simp)
  have again := moe_forward (x := x) fits buffers
    (some (x.map (List.map (moe.router.pick moe.expertBias))))
    (by simpa [own, ← List.map_flatten] using replayed)
  simp only [Option.map_none, own] at plain
  simp only [Option.map_some, TokenChoiceTopKRouter.choices, ← List.map_flatten] at again
  have same := again.trans plain.symm
  have shape : Rectangular (x.headD []).length
      (x.map (List.map fun row => moe.mixture row (moe.router.pick moe.expertBias row))) := by
    intro line member
    obtain ⟨given, listed, rfl⟩ := List.mem_map.mp member
    rw [List.length_map, even given listed]
  have cutBack := cut_of_flatten shape
  rw [List.length_map, ← List.map_flatten] at cutBack
  rw [List.zipWith_map_right, List.zipWith_self, cutBack] at plain
  exact ⟨_, plain, same⟩

/-- Experts that double, negate and keep a row, two of them for each row. A row
scores the first one higher if it is positive, and the second one if it is not. -/
def signLayer (scoreBeforeExperts : Bool) : MoE Rat Rat where
  router :=
    { numExperts := 3
      topK := 2
      scoreFunc := .sigmoid
      routeNorm := true
      routeScale := 10
      forceBalanced := false
      gate := fun row => [row, -row, 1]
      sigmoid := fun score => if 0 < score then 3 else 1
      softmax := id
      topk := fun scores count =>
        (scores.zipIdx.insertionSort (fun first second => second.1 ≤ first.1)).take count
      tiny := 1 }
  experts := fun expert row =>
    match expert with
    | 0 => 2 * row
    | 1 => -row
    | _ => row
  sharedExpert := some (· + 100)
  scoreBeforeExperts := scoreBeforeExperts
  expertBias := none
  scaled := fun row score => row * score

theorem sign_layer_fits (scoreBeforeExperts : Bool) :
    (signLayer scoreBeforeExperts).router.Fits (signLayer scoreBeforeExperts).expertBias where
  width := fun _ => rfl
  enough := Nat.le_succ 2
  biased := by simp [signLayer]
  largest := by
    intro scores enough
    refine ⟨?_, fun found listed => ?_⟩
    · rw [signLayer, List.length_take, List.length_insertionSort, List.length_zipIdx]
      exact Nat.min_eq_left enough
    · have member := (List.perm_insertionSort _ _).mem_iff.mp (List.mem_of_mem_take listed)
      exact List.mem_zipIdx_iff_getElem?.mp member

/-- The rows run through the experts that are replayed for them, weighted by their scores over the
sum of both and one, times ten. -/
theorem moe_forward_mixture_signs :
    ∃ out after, (signLayer true).forward ⟨[1, 0, 0], 0⟩ [[5, -7], [-1, 7]]
        (some [[[0, 1], [1, 2]], [[2, 0], [0, 2]]]) = some (out, after) ∧
      out.flatten = [105 + (60 - 10), 93 + (30 - 30), 99 + (-6 - 4), 107 + (60 + 30)] ∧
      (after.tokensPerExpert[0]? = some 4 ∧ after.tokensPerExpert[1]? = some 2 ∧
        after.tokensPerExpert[2]? = some 3) ∧
      after.tokensPerExpert.sum = 9 := by
  obtain ⟨out, after, ran, _, mixed, counts, total⟩ := moe_forward_mixture (signLayer true)
    ⟨[1, 0, 0], 0⟩ [[5, -7], [-1, 7]] (some [[[0, 1], [1, 2]], [[2, 0], [0, 2]]])
    (sign_layer_fits true) (by decide) rfl (by
      rintro routed same
      obtain rfl := Option.some.inj same
      exact ⟨rfl, by decide, by decide⟩)
  exact ⟨out, after, ran, mixed.trans (by decide +kernel),
    ⟨(counts 0 (by decide)).trans (by decide), (counts 1 (by decide)).trans (by decide),
      (counts 2 (by decide)).trans (by decide)⟩, total.trans (by decide)⟩

theorem moe_replay_own_picks_signs :
    (signLayer false).forward ⟨[0, 0, 0], 0⟩ [[5, -7]] (some [[[0, 2], [1, 2]]]) =
      (signLayer false).forward ⟨[0, 0, 0], 0⟩ [[5, -7]] none := by
  obtain ⟨_, _, same⟩ := moe_replay_own_picks (signLayer false) ⟨[0, 0, 0], 0⟩ [[5, -7]]
    (sign_layer_fits false) (by decide) rfl
  exact same

end Layer

end PrimeRl.Models.Moe
