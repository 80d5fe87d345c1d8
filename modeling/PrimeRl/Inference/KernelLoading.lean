import PrimeRl.Inference.ExpertSlots

/-!
# Where kernel weights end up

A call that returns has copied every received tensor, since problems only
accumulate and are raised at the end. The rows of an expert parameter are
therefore those of the last tensor received for it, as received where the shapes
agree, and rearranged by the source indices of its layer where they do not.
-/

namespace PrimeRl.Inference.WeightTransfer

open Fallible

variable {Value : Type}

/-! ## Runs without problems -/

/-- What is copied into a parameter for a received tensor. -/
def Selected (expertSourceIndices : List (String × List Nat)) (name : String)
    (param tensor selected : Tensor Value) : Prop :=
  param.shape = tensor.shape ∧ selected = tensor ∨
    param.shape ≠ tensor.shape ∧ sourceRows expertSourceIndices name tensor = .ok selected

/-- One turn of the loop: a problem is noted, or the tensor is copied. -/
inductive Turn (expertSourceIndices : List (String × List Nat)) (state : Loading Value)
    (name : String) (tensor : Tensor Value) : Loading Value → Prop where
  | skip : Turn expertSourceIndices state name tensor
      { state with skipped := state.skipped ++ [name] }
  | mismatch (problem : String) : Turn expertSourceIndices state name tensor
      { state with shapeMismatches := state.shapeMismatches ++ [problem] }
  | copied {param selected : Tensor Value} (stored : state.params.get? name = some param)
      (chosen : Selected expertSourceIndices name param tensor selected)
      (fits : param.shape = selected.shape) :
      Turn expertSourceIndices state name tensor (state.copy name selected)

theorem load_one_turn {expertSourceIndices : List (String × List Nat)}
    {state next : Loading Value} {name : String} {tensor : Tensor Value}
    (loaded : loadOne expertSourceIndices state name tensor = .ok next) :
    Turn expertSourceIndices state name tensor next := by
  unfold loadOne at loaded
  cases stored : state.params.get? name with
  | none =>
    rw [stored] at loaded
    cases loaded
    exact .skip
  | some param =>
    rw [stored] at loaded
    dsimp only at loaded
    split at loaded
    · rename_i differs
      obtain ⟨selected, chosen, copying⟩ := bind_ok loaded
      split at copying
      · cases copying
        exact .mismatch _
      · rename_i fits
        cases copying
        exact .copied stored (.inr ⟨differs, chosen⟩) (not_not.mp fits)
    · rename_i same
      cases loaded
      exact .copied stored (.inl ⟨not_not.mp same, rfl⟩) (not_not.mp same)

/-- No turn takes a noted problem back. -/
theorem Turn.problems_grow {expertSourceIndices : List (String × List Nat)}
    {state next : Loading Value} {name : String} {tensor : Tensor Value}
    (turn : Turn expertSourceIndices state name tensor next) :
    state.shapeMismatches <+: next.shapeMismatches ∧ state.skipped <+: next.skipped := by
  cases turn with
  | skip => exact ⟨List.prefix_rfl, List.prefix_append _ _⟩
  | mismatch problem => exact ⟨List.prefix_append _ _, List.prefix_rfl⟩
  | copied => exact ⟨List.prefix_rfl, List.prefix_rfl⟩

theorem load_each_problems_grow {expertSourceIndices : List (String × List Nat)}
    (received : List (String × Tensor Value)) {state final : Loading Value}
    {ended : Except String Unit}
    (loaded : loadEach expertSourceIndices state received = (final, ended)) :
    state.shapeMismatches <+: final.shapeMismatches ∧ state.skipped <+: final.skipped := by
  induction received generalizing state with
  | nil =>
    cases loaded
    exact ⟨List.prefix_rfl, List.prefix_rfl⟩
  | cons first rest inductionHypothesis =>
    obtain ⟨name, tensor⟩ := first
    rw [loadEach] at loaded
    cases turned : loadOne expertSourceIndices state name tensor with
    | error message =>
      rw [turned] at loaded
      cases loaded
      exact ⟨List.prefix_rfl, List.prefix_rfl⟩
    | ok next =>
      rw [turned] at loaded
      have here := (load_one_turn turned).problems_grow
      have later := inductionHypothesis loaded
      exact ⟨here.1.trans later.1, here.2.trans later.2⟩

/-- Parameters before and after copying every received tensor in turn. -/
inductive Copies (expertSourceIndices : List (String × List Nat)) :
    OrderedDict String (Tensor Value) → List (String × Tensor Value) →
      OrderedDict String (Tensor Value) → Prop where
  | done (params : OrderedDict String (Tensor Value)) : Copies expertSourceIndices params [] params
  | copy {params after : OrderedDict String (Tensor Value)} {name : String}
      {tensor param selected : Tensor Value} {rest : List (String × Tensor Value)}
      (stored : params.get? name = some param)
      (chosen : Selected expertSourceIndices name param tensor selected)
      (fits : param.shape = selected.shape)
      (others : Copies expertSourceIndices (params.set name selected) rest after) :
      Copies expertSourceIndices params ((name, tensor) :: rest) after

/-- A loop that runs through and notes no problem copies everything. -/
theorem load_each_copies {expertSourceIndices : List (String × List Nat)}
    (received : List (String × Tensor Value)) {state final : Loading Value}
    (loaded : loadEach expertSourceIndices state received = (final, .ok ()))
    (fitting : final.shapeMismatches = []) (known : final.skipped = []) :
    Copies expertSourceIndices state.params received final.params := by
  induction received generalizing state with
  | nil =>
    cases loaded
    exact .done _
  | cons first rest inductionHypothesis =>
    obtain ⟨name, tensor⟩ := first
    rw [loadEach] at loaded
    cases turned : loadOne expertSourceIndices state name tensor with
    | error message =>
      rw [turned] at loaded
      cases loaded
    | ok next =>
      rw [turned] at loaded
      have later := inductionHypothesis loaded
      obtain ⟨mismatchesKept, skippedKept⟩ := load_each_problems_grow rest loaded
      rw [fitting, List.prefix_nil] at mismatchesKept
      rw [known, List.prefix_nil] at skippedKept
      cases load_one_turn turned with
      | skip => exact absurd skippedKept (by simp)
      | mismatch problem => exact absurd mismatchesKept (by simp)
      | copied stored chosen fits => exact .copy stored chosen fits later

/-- Copying changes no parameter that nothing is received for. -/
theorem Copies.keeps {expertSourceIndices : List (String × List Nat)}
    {params after : OrderedDict String (Tensor Value)} {received : List (String × Tensor Value)}
    (copies : Copies expertSourceIndices params received after) (name : String)
    (absent : name ∉ received.map Prod.fst) : after.get? name = params.get? name := by
  induction copies with
  | done => rfl
  | @copy params after other tensor param selected rest stored chosen fits others
      inductionHypothesis =>
    rw [List.map_cons, List.mem_cons, not_or] at absent
    rw [inductionHypothesis absent.2, OrderedDict.get?_set, if_neg absent.1]

/-- Copying a list is copying its first part, then the rest. -/
theorem Copies.split {expertSourceIndices : List (String × List Nat)}
    {params after : OrderedDict String (Tensor Value)}
    (before : List (String × Tensor Value)) {later : List (String × Tensor Value)}
    (copies : Copies expertSourceIndices params (before ++ later) after) :
    ∃ middle, Copies expertSourceIndices params before middle ∧
      Copies expertSourceIndices middle later after := by
  induction before generalizing params with
  | nil => exact ⟨params, .done params, copies⟩
  | cons first rest inductionHypothesis =>
    cases copies with
    | copy stored chosen fits others =>
      obtain ⟨middle, earlier, remaining⟩ := inductionHypothesis others
      exact ⟨middle, .copy stored chosen fits earlier, remaining⟩

/-- Copying keeps the shape of every parameter. -/
theorem Copies.keeps_shape {expertSourceIndices : List (String × List Nat)}
    {params after : OrderedDict String (Tensor Value)} {received : List (String × Tensor Value)}
    (copies : Copies expertSourceIndices params received after) (name : String) :
    (after.get? name).map Tensor.shape = (params.get? name).map Tensor.shape := by
  induction copies with
  | done => rfl
  | @copy params after other tensor param selected rest stored chosen fits others
      inductionHypothesis =>
    rw [inductionHypothesis, OrderedDict.get?_set]
    split
    · rename_i same
      rw [same, stored, Option.map_some, Option.map_some, fits]
    · rfl

/-- A parameter ends as what was selected for the last tensor received for it. -/
theorem Copies.last {expertSourceIndices : List (String × List Nat)}
    {params after : OrderedDict String (Tensor Value)} {before later : List (String × Tensor Value)}
    {name : String} {tensor param : Tensor Value}
    (copies : Copies expertSourceIndices params (before ++ (name, tensor) :: later) after)
    (stored : params.get? name = some param) (last : name ∉ later.map Prod.fst) :
    ∃ selected, after.get? name = some selected ∧ param.shape = selected.shape ∧
      Selected expertSourceIndices name param tensor selected := by
  obtain ⟨middle, earlier, remaining⟩ := copies.split
  cases remaining with
  | @copy _ _ _ _ current selected _ here chosen fits others =>
    have shapes := earlier.keeps_shape name
    rw [here, stored, Option.map_some, Option.map_some, Option.some.injEq] at shapes
    refine ⟨selected, ?_, shapes ▸ fits, ?_⟩
    · rw [others.keeps name last, OrderedDict.get?_set, if_pos rfl]
    · rw [Selected, shapes] at chosen
      exact chosen

/-- A call that returns copied everything it received. -/
theorem kernel_load_copies
    {remapMoeExpertWeights : List (String × Tensor Value) →
      OrderedDict String (Tensor Value) → List (String × Tensor Value)}
    {model : Model Value} {stateIter : List (String × Tensor Value)}
    (returned : (loadWeightsKernel remapMoeExpertWeights model stateIter).2 = .ok ()) :
    ∃ expertSourceIndices, buildExpertMap model = .ok expertSourceIndices ∧
      Copies expertSourceIndices model.params (remapMoeExpertWeights stateIter model.params)
        (loadWeightsKernel remapMoeExpertWeights model stateIter).1 := by
  unfold loadWeightsKernel at returned ⊢
  cases built : buildExpertMap model with
  | error message =>
    rw [built] at returned
    cases returned
  | ok expertSourceIndices =>
    rw [built] at returned
    dsimp only at returned ⊢
    rcases loaded : loadEach expertSourceIndices ⟨model.params, 0, [], []⟩
      (remapMoeExpertWeights stateIter model.params) with ⟨state, ended⟩
    rw [loaded] at returned
    obtain ⟨⟨⟩, rfl, reported⟩ := bind_ok returned
    obtain ⟨fitting, reported⟩ := check_passed reported
    obtain ⟨known, -⟩ := check_passed reported
    exact ⟨expertSourceIndices, rfl,
      load_each_copies _ loaded (not_not.mp fitting) (not_not.mp known)⟩

/-! ## The layer around a parameter -/

/-- Listed source indices are those of a layer of experts. -/
theorem source_indices_listed {entries : List (String × Module)}
    {listed : List (String × List Nat)} (built : sourceIndicesByModule entries = .ok listed)
    (moduleName : String) (sourceIndices : List Nat)
    (member : (moduleName, sourceIndices) ∈ listed) :
    ∃ routedExperts router, (moduleName, .moeRunner routedExperts router) ∈ entries ∧
      buildExpertSourceIndices routedExperts router = .ok (some sourceIndices) := by
  induction entries generalizing listed with
  | nil =>
    cases built
    exact absurd member List.not_mem_nil
  | cons entry rest inductionHypothesis =>
    obtain ⟨name, layer⟩ := entry
    cases layer with
    | other =>
      obtain ⟨experts, router, inside, found⟩ := inductionHypothesis built member
      exact ⟨experts, router, List.mem_cons_of_mem _ inside, found⟩
    | moeRunner routedExperts router =>
      obtain ⟨found, here, collecting⟩ := bind_ok built
      obtain ⟨others, later, listing⟩ := bind_ok collecting
      cases listing
      have fromOthers : (moduleName, sourceIndices) ∈ others →
          ∃ experts router', (moduleName, .moeRunner experts router') ∈
              (name, .moeRunner routedExperts router) :: rest ∧
            buildExpertSourceIndices experts router' = .ok (some sourceIndices) := by
        intro inside
        obtain ⟨experts, router', listed, same⟩ := inductionHypothesis later inside
        exact ⟨experts, router', List.mem_cons_of_mem _ listed, same⟩
      cases found with
      | none => exact fromOthers member
      | some indices =>
        rcases List.mem_cons.mp member with same | inside
        · obtain ⟨rfl, rfl⟩ := Prod.mk.inj same
          exact ⟨routedExperts, router, List.mem_cons_self, here⟩
        · exact fromOthers inside

/-- Only a layer without an expert map has no source indices. -/
theorem no_source_indices {routedExperts : RoutedExperts} {router : Router}
    (built : buildExpertSourceIndices routedExperts router = .ok none) :
    routedExperts.expertMap = none := by
  unfold buildExpertSourceIndices at built
  cases mapped : routedExperts.expertMap with
  | none => rfl
  | some expertMap =>
    rw [mapped] at built
    dsimp only at built
    split at built
    · cases built
    · obtain ⟨physicalToLogical, -, reading⟩ := bind_ok built
      obtain ⟨logicalIndices, -, checking⟩ := bind_ok reading
      cases (check_passed checking).2

/-- A layer with an expert map has its source indices listed. -/
theorem source_indices_complete {entries : List (String × Module)}
    {listed : List (String × List Nat)} (built : sourceIndicesByModule entries = .ok listed)
    (moduleName : String) (routedExperts : RoutedExperts) (router : Router)
    (member : (moduleName, .moeRunner routedExperts router) ∈ entries)
    (mapped : routedExperts.expertMap ≠ none) :
    ∃ sourceIndices, (moduleName, sourceIndices) ∈ listed := by
  induction entries generalizing listed with
  | nil => exact absurd member List.not_mem_nil
  | cons entry rest inductionHypothesis =>
    obtain ⟨name, layer⟩ := entry
    cases layer with
    | other =>
      rcases List.mem_cons.mp member with same | inside
      · cases same
      · exact inductionHypothesis built inside
    | moeRunner experts router' =>
      obtain ⟨found, here, collecting⟩ := bind_ok built
      obtain ⟨others, later, listing⟩ := bind_ok collecting
      cases listing
      rcases List.mem_cons.mp member with same | inside
      · cases same
        cases found with
        | none => exact absurd (no_source_indices here) mapped
        | some indices => exact ⟨indices, List.mem_cons_self⟩
      · obtain ⟨indices, listedLater⟩ := inductionHypothesis later inside
        refine ⟨indices, ?_⟩
        cases found with
        | none => exact listedLater
        | some _ => exact List.mem_cons_of_mem _ listedLater

/-- Layers around one parameter are one layer. -/
theorem Model.runner_unique (model : Model Value) {first second : String × Module} {name : String}
    (firstListed : first ∈ model.modules.entries) (secondListed : second ∈ model.modules.entries)
    (firstRunner : first.2 ≠ .other) (secondRunner : second.2 ≠ .other)
    (firstInside : Inside name first.1) (secondInside : Inside name second.1) :
    first = second := by
  have sameName : first.1 = second.1 := by
    rcases List.prefix_or_prefix_of_prefix firstInside secondInside with nested | nested
    · exact model.runners_apart first second firstListed secondListed firstRunner secondRunner nested
    · exact (model.runners_apart second first secondListed firstListed secondRunner firstRunner
        nested).symm
  exact List.inj_on_of_nodup_map model.modules.distinct firstListed secondListed sameName

/-- The rows of a tensor are rearranged by the source indices of the layer it is for. -/
theorem source_rows_gathered {model : Model Value}
    {expertSourceIndices : List (String × List Nat)} {moduleName name : String}
    {routedExperts : RoutedExperts} {router : Router} {tensor selected : Tensor Value}
    (built : buildExpertMap model = .ok expertSourceIndices)
    (listed : (moduleName, .moeRunner routedExperts router) ∈ model.modules.entries)
    (mapped : routedExperts.expertMap ≠ none) (inside : Inside name moduleName)
    (rearranged : sourceRows expertSourceIndices name tensor = .ok selected) :
    ∃ sourceIndices, buildExpertSourceIndices routedExperts router = .ok (some sourceIndices) ∧
      tensor.gather sourceIndices = some selected := by
  unfold sourceRows at rearranged
  split at rearranged
  · rename_i absent
    obtain ⟨indices, here⟩ := source_indices_complete built moduleName routedExperts router listed mapped
    have refused := List.find?_eq_none.mp absent _ here
    exact absurd (decide_eq_true inside) refused
  · rename_i otherName sourceIndices found
    have otherInside : Inside name otherName := by simpa using List.find?_some found
    obtain ⟨experts, otherRouter, otherListed, indicesBuilt⟩ :=
      source_indices_listed built otherName sourceIndices (List.mem_of_find?_eq_some found)
    have same := model.runner_unique otherListed listed nofun nofun otherInside inside
    cases same
    refine ⟨sourceIndices, indicesBuilt, ?_⟩
    split at rearranged
    · rename_i gathered isGathered
      rw [isGathered, Except.ok.inj rearranged]
    · cases rearranged

/-! ## Rows of an expert parameter -/

/-- Each slot of a parameter holds the row of the logical expert it serves. -/
def HoldsExperts (expertMap : List Int) (router : Router) (slots : Nat)
    (tensor loaded : Tensor Value) : Prop :=
  ∀ slot logical, slot < slots → Serves expertMap router slot logical →
    loaded.row slot = tensor.row logical

/-- Gathering by the source indices of a layer puts every expert into its slots. -/
theorem gathered_holds_experts {routedExperts : RoutedExperts} {router : Router}
    {expertMap : List Int} {slots : Nat} {sourceIndices : List Nat}
    {tensor gathered : Tensor Value} (mapped : routedExperts.expertMap = some expertMap)
    (placement : Placement expertMap slots) (single : EachServesOne expertMap router)
    (built : buildExpertSourceIndices routedExperts router = .ok (some sourceIndices))
    (isGathered : tensor.gather sourceIndices = some gathered) :
    HoldsExperts expertMap router slots tensor gathered := by
  obtain ⟨count, serve⟩ := source_indices_serve mapped placement built
  intro slot logical inside serves
  obtain ⟨chosen, listed⟩ : ∃ chosen, sourceIndices[slot]? = some chosen :=
    ⟨_, List.getElem?_eq_getElem (count ▸ inside)⟩
  obtain ⟨physical, placed, replica⟩ := serves
  obtain ⟨other, otherPlaced, otherReplica⟩ := serve slot chosen listed
  have samePhysical := (placement.filled slot inside).unique otherPlaced placed
  have sameLogical := (single physical slot placed).unique (samePhysical ▸ otherReplica) replica
  rw [← sameLogical]
  exact Tensor.gather_row isGathered slot chosen listed

/-- A call that returns leaves every expert of a layer in its slots exactly when the worker has
another number of slots than there are logical experts, so that the received tensor is
rearranged, or the row that stands at a slot as received is already the right one. -/
theorem kernel_load_places_experts_iff
    (remapMoeExpertWeights : List (String × Tensor Value) →
      OrderedDict String (Tensor Value) → List (String × Tensor Value))
    (model : Model Value) (stateIter : List (String × Tensor Value))
    (moduleName : String) (routedExperts : RoutedExperts) (router : Router)
    (listed : (moduleName, .moeRunner routedExperts router) ∈ model.modules.entries)
    (expertMap : List Int) (mapped : routedExperts.expertMap = some expertMap)
    (slots : Nat) (placement : Placement expertMap slots)
    (single : EachServesOne expertMap router)
    (name : String) (inside : Inside name moduleName) (param : Tensor Value)
    (stored : model.params.get? name = some param) (held : param.shape.head? = some slots)
    (before later : List (String × Tensor Value)) (tensor : Tensor Value)
    (received : remapMoeExpertWeights stateIter model.params = before ++ (name, tensor) :: later)
    (last : name ∉ later.map Prod.fst)
    (indexed : tensor.shape.head? = some (logicalExperts routedExperts router))
    (returned : (loadWeightsKernel remapMoeExpertWeights model stateIter).2 = .ok ()) :
    (∃ loaded, (loadWeightsKernel remapMoeExpertWeights model stateIter).1.get? name = some loaded ∧
        HoldsExperts expertMap router slots tensor loaded) ↔
      slots ≠ logicalExperts routedExperts router ∨
        HoldsExperts expertMap router slots tensor tensor := by
  obtain ⟨expertSourceIndices, built, copies⟩ := kernel_load_copies returned
  rw [received] at copies
  obtain ⟨selected, ended, fits, chosen⟩ := copies.last stored last
  simp only [ended, Option.some.injEq, exists_eq_left']
  rcases chosen with ⟨sameShape, rfl⟩ | ⟨otherShape, rearranged⟩
  · -- As many slots as logical experts: nothing is rearranged.
    have sameCount : slots = logicalExperts routedExperts router := by
      rw [sameShape, indexed] at held
      exact (Option.some.inj held).symm
    exact ⟨.inr, fun either => either.resolve_left (absurd sameCount)⟩
  · obtain ⟨sourceIndices, indicesBuilt, isGathered⟩ :=
      source_rows_gathered built listed (by simp [mapped]) inside rearranged
    have holds := gathered_holds_experts mapped placement single indicesBuilt isGathered
    refine iff_of_true holds (.inl ?_)
    intro sameCount
    apply otherShape
    obtain ⟨tail, paramShape⟩ := List.head?_eq_some_iff.mp held
    obtain ⟨rest, tensorShape⟩ := List.head?_eq_some_iff.mp indexed
    have gatheredShape := Tensor.gather_shape isGathered
    rw [← fits, paramShape, tensorShape, List.tail_cons] at gatheredShape
    rw [paramShape, tensorShape, ← sameCount, (List.cons.inj gatheredShape).2]

/-! ## Two workers -/

/-- A router whose map lists the replicas of each logical expert. -/
def routerWith (logicalToPhysicalMap : List (List Int)) : Router := ⟨some ⟨some logicalToPhysicalMap⟩⟩

/-- A worker with one layer `m` of experts and its parameter `m.w`, with rows of one value. -/
def workerWith (routedExperts : RoutedExperts) (router : Router) (slots : Nat) : Model Nat where
  params := ⟨[("m.w", ⟨[slots, 1], List.replicate slots 0, by simp⟩)], List.nodup_singleton _⟩
  modules := ⟨[("m", .moeRunner routedExperts router)], List.nodup_singleton _⟩
  runners_apart := by
    intro outer inner outerListed innerListed _ _ _
    rw [List.mem_singleton.mp outerListed, List.mem_singleton.mp innerListed]

/-- Three logical experts, one of them with two replicas; the two slots of the worker hold
replicas of the last and of the first. -/
theorem kernel_load_places_three_experts :
    ∃ loaded, (loadWeightsKernel (fun received _ => received)
          (workerWith ⟨some [1, 0, -1, -1], 4⟩ (routerWith [[0, -1], [3, -1], [1, 2]]) 2)
          [("m.w", ⟨[3, 1], [10, 20, 30], rfl⟩)]).1.get? "m.w" = some loaded ∧
        HoldsExperts [1, 0, -1, -1] (routerWith [[0, -1], [3, -1], [1, 2]]) 2
          ⟨[3, 1], [10, 20, 30], rfl⟩ loaded :=
  (kernel_load_places_experts_iff (fun received _ => received)
    (workerWith ⟨some [1, 0, -1, -1], 4⟩ (routerWith [[0, -1], [3, -1], [1, 2]]) 2)
    [("m.w", ⟨[3, 1], [10, 20, 30], rfl⟩)] "m" ⟨some [1, 0, -1, -1], 4⟩
    (routerWith [[0, -1], [3, -1], [1, 2]]) List.mem_cons_self [1, 0, -1, -1] rfl 2
    (by decide)
    ((each_serves_one_iff_bounded _ _ [[0, -1], [3, -1], [1, 2]] rfl).mpr (by decide))
    "m.w" (by decide +kernel) ⟨[2, 1], [0, 0], rfl⟩ (by decide +kernel) rfl [] []
    ⟨[3, 1], [10, 20, 30], rfl⟩ rfl List.not_mem_nil rfl (by decide +kernel)).mpr
    (.inl (by decide))

/-- With as many slots as logical experts the rows stay where they were received: two workers
share two logical experts with two replicas each, and the first one holds them in the other
order. -/
theorem swapped_experts_stay_in_place :
    Placement [0, 1, -1, -1] 2 ∧ EachServesOne [0, 1, -1, -1] (routerWith [[1, 2], [0, 3]]) ∧
      (loadWeightsKernel (fun received _ => received)
        (workerWith ⟨some [0, 1, -1, -1], 4⟩ (routerWith [[1, 2], [0, 3]]) 2)
        [("m.w", ⟨[2, 1], [10, 20], rfl⟩)]).2 = .ok () ∧
      (loadWeightsKernel (fun received _ => received)
        (workerWith ⟨some [0, 1, -1, -1], 4⟩ (routerWith [[1, 2], [0, 3]]) 2)
        [("m.w", ⟨[2, 1], [10, 20], rfl⟩)]).1.get? "m.w" = some ⟨[2, 1], [10, 20], rfl⟩ ∧
      ¬ HoldsExperts [0, 1, -1, -1] (routerWith [[1, 2], [0, 3]]) 2
        (⟨[2, 1], [10, 20], rfl⟩ : Tensor Nat) ⟨[2, 1], [10, 20], rfl⟩ := by
  refine ⟨by decide, ?_, by decide +kernel, by decide +kernel, ?_⟩
  · exact (each_serves_one_iff_bounded _ _ [[1, 2], [0, 3]] rfl).mpr (by decide)
  · intro holds
    have serves : Serves [0, 1, -1, -1] (routerWith [[1, 2], [0, 3]]) 0 1 :=
      ⟨0, rfl, [0, 3], rfl, List.mem_cons_self⟩
    exact absurd (holds 0 1 (by decide) serves) (by decide)

end PrimeRl.Inference.WeightTransfer
