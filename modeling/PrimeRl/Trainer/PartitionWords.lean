import PrimeRl.Support.Argsort
import PrimeRl.Support.SignedWord
import PrimeRl.Trainer.Partition

/-!
# The swap search on arrays of words

The refinement searches all exchanges between two groups at once, on arrays of
64-bit words, with loads relative to the largest one. Where the words might not
hold a result it falls back to the search in integers of any size. Both search
the exchanges in the same order, so they choose the same ones.
-/

namespace PrimeRl.Trainer.Partition

open SignedWord

def maxWeight (weights : List Int) : Int :=
  ((weights.map (fun weight => (weight.natAbs : Int))).max?).getD 0

def relativeLoads (loads : List Int) : List Int :=
  loads.map (fun load => load - maxLoad loads)

/-- One entry for each pair of a row and a column, row after row. -/
def pairGrid (rows columns : List Int) (entry : Int → Int → Int) : List Int :=
  rows.flatMap (fun row => columns.map (entry row))

/-- The arrays of one pair of groups. Entries of the last five stand for the
exchanges between them. -/
structure SwapGrid where
  leftDrop : List Int
  rightDrop : List Int
  newLeft : List Int
  newRight : List Int
  newMax : List Int
  newMin : List Int
  distance : List Int

/-- Every number the arrays hold. -/
def SwapGrid.values (grid : SwapGrid) : List Int :=
  grid.leftDrop ++ grid.rightDrop ++ grid.newLeft ++ grid.newRight ++ grid.newMax ++ grid.newMin ++
    grid.distance

/-- The arrays of a pair of groups, where `word` stores a result. With no other
groups the bounds of the words stand for their extreme loads. -/
def swapGrid (word : Int → Int) (relative : List Int) (leftRank rightRank : Nat)
    (leftWeights rightWeights : List Int) : SwapGrid :=
  let others := (relative.eraseIdx rightRank).eraseIdx leftRank
  let otherMax := others.max?.getD lowest
  let otherMin := others.min?.getD highest
  let leftDrop := leftWeights.map (fun weight => word (relative.getD leftRank 0 - weight))
  let rightDrop := rightWeights.map (fun weight => word (relative.getD rightRank 0 - weight))
  let newLeft := pairGrid leftDrop rightWeights (fun drop weight => word (drop + weight))
  let newRight := pairGrid leftWeights rightDrop (fun weight drop => word (drop + weight))
  let newMax := (List.zipWith max newLeft newRight).map (fun load => max load otherMax)
  let newMin := (List.zipWith min newLeft newRight).map (fun load => min load otherMin)
  { leftDrop := leftDrop
    rightDrop := rightDrop
    newLeft := newLeft
    newRight := newRight
    newMax := newMax
    newMin := newMin
    distance := List.zipWith (fun high low => word (high - low)) newMax newMin }

/-- The weights of a group, as words. -/
def itemWeights (weights : List Int) (partition : List Nat) : List Int :=
  partition.map (fun idx => weights.getD idx 0)

/-- Search one pair of groups, given the best score so far. -/
def searchPair (word : Int → Int) (weights : List Int) (partitions : List (List Nat))
    (relative : List Int) (best : (Int × Int) × Option Swap) (ranks : Nat × Nat) :
    (Int × Int) × Option Swap :=
  let left := partitions.getD ranks.1 []
  let right := partitions.getD ranks.2 []
  if left.isEmpty || right.isEmpty then best
  else
    let grid := swapGrid word relative ranks.1 ranks.2 (itemWeights weights left)
      (itemWeights weights right)
    let lowestMax := grid.newMax.min?.getD 0
    if best.1.1 < lowestMax then best
    else
      let spread := List.zipWith
        (fun high distance => if high = lowestMax then distance else highest)
        grid.newMax grid.distance
      let flat := FirstLowest.argmin spread
      let score := (lowestMax, spread.getD flat 0)
      if lower score best.1 then
        (score, some ⟨ranks.1, ranks.2, flat / right.length, flat % right.length⟩)
      else best

def rankPairs (groups : Nat) : List (Nat × Nat) :=
  (List.range groups).flatMap (fun leftRank =>
    ((List.range groups).filter (fun rightRank => decide (leftRank < rightRank))).map
      (fun rightRank => (leftRank, rightRank)))

/-- The first exchange with the lowest score, searched on arrays of words. -/
def bestSwapWords (weights : List Int) (division : Division) : Option Swap :=
  ((rankPairs division.partitions.length).foldl
    (searchPair wrap weights division.partitions (relativeLoads division.loads))
    ((0, maxLoad division.loads - minLoad division.loads), none)).2

/-! ## The arrays hold exact results -/

theorem map_pairGrid (rows columns : List Int) (entry : Int → Int → Int) (word : Int → Int) :
    pairGrid rows columns (fun row column => word (entry row column)) =
      (pairGrid rows columns entry).map word := by
  rw [pairGrid, pairGrid, List.map_flatMap]
  apply List.flatMap_congr
  intro row _
  rw [List.map_map]
  rfl

theorem mem_pairGrid {rows columns : List Int} {entry : Int → Int → Int} {value : Int} :
    value ∈ pairGrid rows columns entry ↔
      ∃ row ∈ rows, ∃ column ∈ columns, entry row column = value := by
  simp only [pairGrid, List.mem_flatMap, List.mem_map]

theorem stored_exactly {values : List Int} (fits : ∀ value ∈ values, Fits value) :
    values.map wrap = values := by
  calc values.map wrap = values.map id :=
        List.map_congr_left (fun value member => wrap_of_fits (fits value member))
    _ = values := List.map_id values

/-- Storing results changes nothing where all of them fit. -/
theorem swap_grid_exact (relative : List Int) (leftRank rightRank : Nat)
    (leftWeights rightWeights : List Int)
    (fits : ∀ value ∈ (swapGrid id relative leftRank rightRank leftWeights rightWeights).values,
      Fits value) :
    swapGrid wrap relative leftRank rightRank leftWeights rightWeights =
      swapGrid id relative leftRank rightRank leftWeights rightWeights := by
  simp only [SwapGrid.values, List.mem_append, or_imp, forall_and] at fits
  obtain ⟨⟨⟨⟨⟨⟨leftDrop, rightDrop⟩, newLeft⟩, newRight⟩, -⟩, -⟩, distance⟩ := fits
  simp only [swapGrid, id_eq] at leftDrop rightDrop newLeft newRight distance ⊢
  have sameLeft : leftWeights.map (fun weight => wrap (relative.getD leftRank 0 - weight)) =
      leftWeights.map (fun weight => relative.getD leftRank 0 - weight) := by
    have stored := stored_exactly leftDrop
    rwa [List.map_map] at stored
  have sameRight : rightWeights.map (fun weight => wrap (relative.getD rightRank 0 - weight)) =
      rightWeights.map (fun weight => relative.getD rightRank 0 - weight) := by
    have stored := stored_exactly rightDrop
    rwa [List.map_map] at stored
  rw [sameLeft, sameRight, map_pairGrid _ _ (fun drop weight => drop + weight) wrap,
    map_pairGrid _ _ (fun weight drop => drop + weight) wrap, stored_exactly newLeft,
    stored_exactly newRight, ← List.map_zipWith, stored_exactly distance]

/-- Positions in two groups, row after row. -/
def cells (rows columns : Nat) : List (Nat × Nat) :=
  (List.range rows).flatMap (fun row => (List.range columns).map (fun column => (row, column)))

theorem pair_grid_cells (rows columns : List Int) (entry : Int → Int → Int) :
    pairGrid rows columns entry = (cells rows.length columns.length).map
      (fun cell => entry (rows.getD cell.1 0) (columns.getD cell.2 0)) := by
  conv_lhs => rw [← Argsort.range_getD rows 0, ← Argsort.range_getD columns 0]
  rw [pairGrid, cells, List.flatMap_map, List.map_flatMap]
  apply List.flatMap_congr
  intro row _
  rw [List.map_map, List.map_map]
  rfl

theorem pairGrid_map_rows (rows columns : List Int) (change : Int → Int)
    (entry : Int → Int → Int) :
    pairGrid (rows.map change) columns entry =
      pairGrid rows columns (fun row column => entry (change row) column) := by
  rw [pairGrid, pairGrid, List.flatMap_map]

theorem pairGrid_map_columns (rows columns : List Int) (change : Int → Int)
    (entry : Int → Int → Int) :
    pairGrid rows (columns.map change) entry =
      pairGrid rows columns (fun row column => entry row (change column)) := by
  simp only [pairGrid, List.map_map, Function.comp_def]

theorem zipWith_of_map {Cell : Type} {First Second Result : Type} (join : First → Second → Result)
    (items : List Cell) (first : Cell → First) (second : Cell → Second) :
    List.zipWith join (items.map first) (items.map second) =
      items.map (fun cell => join (first cell) (second cell)) := by
  rw [List.zipWith_map, List.zipWith_self]

section Arrays

variable (relative : List Int) (leftRank rightRank : Nat) (leftWeights rightWeights : List Int)

/-- The loads of both groups after the exchange of one cell. -/
def cellLoads (cell : Nat × Nat) : Int × Int :=
  (relative.getD leftRank 0 - leftWeights.getD cell.1 0 + rightWeights.getD cell.2 0,
    relative.getD rightRank 0 - rightWeights.getD cell.2 0 + leftWeights.getD cell.1 0)

def cellMax (cell : Nat × Nat) : Int :=
  let loads := cellLoads relative leftRank rightRank leftWeights rightWeights cell
  max (max loads.1 loads.2) (((relative.eraseIdx rightRank).eraseIdx leftRank).max?.getD lowest)

def cellMin (cell : Nat × Nat) : Int :=
  let loads := cellLoads relative leftRank rightRank leftWeights rightWeights cell
  min (min loads.1 loads.2) (((relative.eraseIdx rightRank).eraseIdx leftRank).min?.getD highest)

/-- The exact arrays, cell by cell. -/
theorem swap_grid_cells :
    (swapGrid id relative leftRank rightRank leftWeights rightWeights).newMax =
        (cells leftWeights.length rightWeights.length).map
          (cellMax relative leftRank rightRank leftWeights rightWeights) ∧
      (swapGrid id relative leftRank rightRank leftWeights rightWeights).newMin =
        (cells leftWeights.length rightWeights.length).map
          (cellMin relative leftRank rightRank leftWeights rightWeights) ∧
      (swapGrid id relative leftRank rightRank leftWeights rightWeights).distance =
        (cells leftWeights.length rightWeights.length).map (fun cell =>
          cellMax relative leftRank rightRank leftWeights rightWeights cell -
            cellMin relative leftRank rightRank leftWeights rightWeights cell) ∧
      (swapGrid id relative leftRank rightRank leftWeights rightWeights).newLeft =
        (cells leftWeights.length rightWeights.length).map (fun cell =>
          (cellLoads relative leftRank rightRank leftWeights rightWeights cell).1) ∧
      (swapGrid id relative leftRank rightRank leftWeights rightWeights).newRight =
        (cells leftWeights.length rightWeights.length).map (fun cell =>
          (cellLoads relative leftRank rightRank leftWeights rightWeights cell).2) := by
  have newLeft : pairGrid (leftWeights.map (fun weight => relative.getD leftRank 0 - weight))
      rightWeights (fun drop weight => drop + weight) =
        (cells leftWeights.length rightWeights.length).map (fun cell =>
          (cellLoads relative leftRank rightRank leftWeights rightWeights cell).1) := by
    rw [pairGrid_map_rows, pair_grid_cells]
    rfl
  have newRight : pairGrid leftWeights
      (rightWeights.map (fun weight => relative.getD rightRank 0 - weight))
      (fun weight drop => drop + weight) =
        (cells leftWeights.length rightWeights.length).map (fun cell =>
          (cellLoads relative leftRank rightRank leftWeights rightWeights cell).2) := by
    rw [pairGrid_map_columns, pair_grid_cells]
    rfl
  simp only [swapGrid, id_eq, newLeft, newRight, zipWith_of_map, List.map_map]
  exact ⟨rfl, rfl, rfl, trivial, trivial⟩

/-- Loads at most `spread` below the largest, and weights up to `largest`. -/
structure Near (relative leftWeights rightWeights : List Int) (spread largest : Int) : Prop where
  spread_nonneg : 0 ≤ spread
  largest_nonneg : 0 ≤ largest
  loads : ∀ load ∈ relative, -spread ≤ load ∧ load ≤ 0
  left : ∀ weight ∈ leftWeights, -largest ≤ weight ∧ weight ≤ largest
  right : ∀ weight ∈ rightWeights, -largest ≤ weight ∧ weight ≤ largest

variable {relative leftWeights rightWeights} {spread largest : Int}

theorem getD_bounded {values : List Int} {low high : Int} (lowest : low ≤ 0) (highest : 0 ≤ high)
    (bounded : ∀ value ∈ values, low ≤ value ∧ value ≤ high) (index : Nat) :
    low ≤ values.getD index 0 ∧ values.getD index 0 ≤ high := by
  rw [List.getD_eq_getElem?_getD]
  cases found : values[index]? with
  | none => exact ⟨lowest, highest⟩
  | some value => exact bounded value (List.mem_of_getElem? found)

theorem Near.rank (near : Near relative leftWeights rightWeights spread largest) (index : Nat) :
    -spread ≤ relative.getD index 0 ∧ relative.getD index 0 ≤ 0 := by
  apply getD_bounded _ (le_refl 0) near.loads
  have := near.spread_nonneg
  omega

/-- Candidate loads lie between `-spread - 2 * largest` and `2 * largest`. -/
theorem Near.cell_loads (near : Near relative leftWeights rightWeights spread largest)
    (cell : Nat × Nat) :
    let loads := cellLoads relative leftRank rightRank leftWeights rightWeights cell
    (-spread - 2 * largest ≤ loads.1 ∧ loads.1 ≤ 2 * largest) ∧
      -spread - 2 * largest ≤ loads.2 ∧ loads.2 ≤ 2 * largest := by
  have positive := near.largest_nonneg
  have one := near.rank leftRank
  have other := near.rank rightRank
  have given := getD_bounded (by omega) positive near.left cell.1
  have got := getD_bounded (by omega) positive near.right cell.2
  simp only [cellLoads]
  omega

/-- So do their extremes, and their distance is at most `spread + 4 * largest`. -/
theorem Near.cell_extremes (near : Near relative leftWeights rightWeights spread largest)
    (room : spread + 4 * largest < highest) (cell : Nat × Nat) :
    let high := cellMax relative leftRank rightRank leftWeights rightWeights cell
    let low := cellMin relative leftRank rightRank leftWeights rightWeights cell
    (-spread - 2 * largest ≤ high ∧ high ≤ 2 * largest) ∧
      (-spread - 2 * largest ≤ low ∧ low ≤ 2 * largest) ∧ low ≤ high := by
  have apart := near.spread_nonneg
  have positive := near.largest_nonneg
  have otherNear : ∀ load ∈ (relative.eraseIdx rightRank).eraseIdx leftRank,
      -spread ≤ load ∧ load ≤ 0 := by
    intro load member
    exact near.loads load (List.mem_of_mem_eraseIdx (List.mem_of_mem_eraseIdx member))
  have otherMax : ((relative.eraseIdx rightRank).eraseIdx leftRank).max?.getD lowest ≤ 0 := by
    cases found : ((relative.eraseIdx rightRank).eraseIdx leftRank).max? with
    | none => decide
    | some top => exact (otherNear top (List.max?_mem found)).2
  have otherMin : -spread ≤ ((relative.eraseIdx rightRank).eraseIdx leftRank).min?.getD highest := by
    cases found : ((relative.eraseIdx rightRank).eraseIdx leftRank).min? with
    | none =>
      simp only [Option.getD_none]
      omega
    | some low => exact (otherNear low (List.min?_mem found)).1
  have both := near.cell_loads leftRank rightRank cell
  simp only [cellMax, cellMin] at both ⊢
  omega

/-- The bound that the search checks before it uses words is enough for every
array of every pair of groups. -/
theorem Near.grid_fits (near : Near relative leftWeights rightWeights spread largest)
    (room : spread + 4 * largest < highest) :
    ∀ value ∈ (swapGrid id relative leftRank rightRank leftWeights rightWeights).values,
      Fits value := by
  obtain ⟨isMax, isMin, isDistance, isLeft, isRight⟩ :=
    swap_grid_cells relative leftRank rightRank leftWeights rightWeights
  have apart := near.spread_nonneg
  have positive := near.largest_nonneg
  have loads := near.cell_loads leftRank rightRank
  have extremes := near.cell_extremes leftRank rightRank room
  simp only [highest] at room
  intro value member
  simp only [SwapGrid.values, List.mem_append, isMax, isMin, isDistance, isLeft, isRight,
    List.mem_map] at member
  simp only [Fits, lowest, highest]
  rcases member with (((((isDrop | isDrop) | ⟨cell, -, rfl⟩) | ⟨cell, -, rfl⟩) | ⟨cell, -, rfl⟩) |
    ⟨cell, -, rfl⟩) | ⟨cell, -, rfl⟩
  · obtain ⟨weight, isWeight, rfl⟩ := List.mem_map.mp isDrop
    have bounded := near.left weight isWeight
    have base := near.rank leftRank
    simp only [id_eq]
    omega
  · obtain ⟨weight, isWeight, rfl⟩ := List.mem_map.mp isDrop
    have bounded := near.right weight isWeight
    have base := near.rank rightRank
    simp only [id_eq]
    omega
  · have both := loads cell
    simp only at both
    omega
  · have both := loads cell
    simp only at both
    omega
  · have both := extremes cell
    omega
  · have both := extremes cell
    omega
  · have both := extremes cell
    omega

end Arrays

/-! ## The arrays hold the scores of the exchanges -/

/-- What two replaced entries leave of the others. -/
theorem set_two_perm (loads : List Int) (leftRank rightRank : Nat) (ascending : leftRank < rightRank)
    (inside : rightRank < loads.length) (left right : Int) :
    ((loads.set leftRank left).set rightRank right).Perm
      (left :: right :: (loads.eraseIdx rightRank).eraseIdx leftRank) := by
  have replaced : rightRank < (loads.set leftRank left).length := by rwa [List.length_set]
  have shorter : leftRank < (loads.eraseIdx rightRank).length := by
    rw [List.length_eraseIdx_of_lt inside]
    omega
  have last := List.set_perm_cons_eraseIdx replaced right
  rw [List.eraseIdx_set_gt ascending] at last
  have first := List.set_perm_cons_eraseIdx shorter left
  exact last.trans ((first.cons right).trans (List.Perm.swap _ _ _))

theorem max_load_eq {loads : List Int} {value : Int} (member : value ∈ loads)
    (largest : ∀ load ∈ loads, load ≤ value) : maxLoad loads = value := by
  rw [maxLoad, List.max?_eq_some_iff.mpr ⟨member, largest⟩, Option.getD_some]

theorem min_load_eq {loads : List Int} {value : Int} (member : value ∈ loads)
    (smallest : ∀ load ∈ loads, value ≤ load) : minLoad loads = value := by
  rw [minLoad, List.min?_eq_some_iff.mpr ⟨member, smallest⟩, Option.getD_some]

/-- The largest load after two are replaced, found among the two and the others. -/
theorem max_after_exchange (loads : List Int) (leftRank rightRank : Nat)
    (ascending : leftRank < rightRank) (inside : rightRank < loads.length) (left right floor : Int)
    (above : floor ≤ left) :
    max (max left right) (((loads.eraseIdx rightRank).eraseIdx leftRank).max?.getD floor) =
      maxLoad ((loads.set leftRank left).set rightRank right) := by
  have reordered := set_two_perm loads leftRank rightRank ascending inside left right
  symm
  cases found : ((loads.eraseIdx rightRank).eraseIdx leftRank).max? with
  | none =>
    rw [List.max?_eq_none_iff] at found
    rw [found] at reordered
    simp only [Option.getD_none]
    apply max_load_eq
    · rw [reordered.mem_iff]
      simp only [List.mem_cons, List.not_mem_nil, or_false]
      omega
    · intro load member
      rw [reordered.mem_iff] at member
      simp only [List.mem_cons, List.not_mem_nil, or_false] at member
      omega
  | some top =>
    obtain ⟨member, largest⟩ := List.max?_eq_some_iff.mp found
    simp only [Option.getD_some]
    apply max_load_eq
    · rw [reordered.mem_iff, List.mem_cons, List.mem_cons]
      rcases max_choice (max left right) top with same | same
      · rw [same]
        rcases max_choice left right with isLeft | isRight
        · exact Or.inl isLeft
        · exact Or.inr (Or.inl isRight)
      · rw [same]
        exact Or.inr (Or.inr member)
    · intro load isLoad
      rw [reordered.mem_iff, List.mem_cons, List.mem_cons] at isLoad
      rcases isLoad with rfl | rfl | other
      · omega
      · omega
      · have below := largest load other
        omega

/-- The smallest load after two are replaced. -/
theorem min_after_exchange (loads : List Int) (leftRank rightRank : Nat)
    (ascending : leftRank < rightRank) (inside : rightRank < loads.length)
    (left right ceiling : Int) (under : left ≤ ceiling) :
    min (min left right) (((loads.eraseIdx rightRank).eraseIdx leftRank).min?.getD ceiling) =
      minLoad ((loads.set leftRank left).set rightRank right) := by
  have reordered := set_two_perm loads leftRank rightRank ascending inside left right
  symm
  cases found : ((loads.eraseIdx rightRank).eraseIdx leftRank).min? with
  | none =>
    rw [List.min?_eq_none_iff] at found
    rw [found] at reordered
    simp only [Option.getD_none]
    apply min_load_eq
    · rw [reordered.mem_iff]
      simp only [List.mem_cons, List.not_mem_nil, or_false]
      omega
    · intro load member
      rw [reordered.mem_iff] at member
      simp only [List.mem_cons, List.not_mem_nil, or_false] at member
      omega
  | some low =>
    obtain ⟨member, smallest⟩ := List.min?_eq_some_iff.mp found
    simp only [Option.getD_some]
    apply min_load_eq
    · rw [reordered.mem_iff, List.mem_cons, List.mem_cons]
      rcases min_choice (min left right) low with same | same
      · rw [same]
        rcases min_choice left right with isLeft | isRight
        · exact Or.inl isLeft
        · exact Or.inr (Or.inl isRight)
      · rw [same]
        exact Or.inr (Or.inr member)
    · intro load isLoad
      rw [reordered.mem_iff, List.mem_cons, List.mem_cons] at isLoad
      rcases isLoad with rfl | rfl | other
      · omega
      · omega
      · have above := smallest load other
        omega

/-- Loads relative to any base keep their extremes. -/
theorem relative_extremes (loads : List Int) (nonempty : loads ≠ []) (base : Int) :
    maxLoad (loads.map (fun load => load - base)) = maxLoad loads - base ∧
      minLoad (loads.map (fun load => load - base)) = minLoad loads - base := by
  constructor
  · cases largest : loads.max? with
    | none => exact absurd (List.max?_eq_none_iff.mp largest) nonempty
    | some top =>
      obtain ⟨member, above⟩ := List.max?_eq_some_iff.mp largest
      rw [maxLoad.eq_1 loads, largest, Option.getD_some]
      apply max_load_eq (List.mem_map.mpr ⟨top, member, rfl⟩)
      intro load isLoad
      obtain ⟨original, isOriginal, rfl⟩ := List.mem_map.mp isLoad
      have below := above original isOriginal
      omega
  · cases smallest : loads.min? with
    | none => exact absurd (List.min?_eq_none_iff.mp smallest) nonempty
    | some low =>
      obtain ⟨member, under⟩ := List.min?_eq_some_iff.mp smallest
      rw [minLoad.eq_1 loads, smallest, Option.getD_some]
      apply min_load_eq (List.mem_map.mpr ⟨low, member, rfl⟩)
      intro load isLoad
      obtain ⟨original, isOriginal, rfl⟩ := List.mem_map.mp isLoad
      have above := under original isOriginal
      omega

/-- A score with the largest load taken relative to a base. -/
def shift (base : Int) (score : Int × Int) : Int × Int := (score.1 - base, score.2)

theorem shift_lower (base : Int) (first second : Int × Int) :
    lower (shift base first) (shift base second) = lower first second := by
  rw [Bool.eq_iff_iff, lower_iff, lower_iff]
  simp only [shift]
  omega

/-- The exchange of a cell. -/
def cellSwap (leftRank rightRank : Nat) (cell : Nat × Nat) : Swap :=
  ⟨leftRank, rightRank, cell.1, cell.2⟩

theorem item_weights_getD (weights : List Int) (partition : List Nat) (position : Nat)
    (inside : position < partition.length) :
    (itemWeights weights partition).getD position 0 =
      weights.getD (partition.getD position 0) 0 := by
  have mapped : position < (itemWeights weights partition).length := by
    rwa [itemWeights, List.length_map]
  rw [List.getD_eq_getElem _ _ mapped, List.getD_eq_getElem _ _ inside]
  simp only [itemWeights, List.getElem_map]

/-- A cell of the exact arrays holds the score of its exchange. -/
theorem cell_score (weights : List Int) (division : Division) (leftRank rightRank : Nat)
    (ascending : leftRank < rightRank) (inside : rightRank < division.partitions.length)
    (cell : Nat × Nat) (leftInside : cell.1 < (division.partitions.getD leftRank []).length)
    (rightInside : cell.2 < (division.partitions.getD rightRank []).length)
    (fits : Fits (cellLoads (relativeLoads division.loads) leftRank rightRank
      (itemWeights weights (division.partitions.getD leftRank []))
      (itemWeights weights (division.partitions.getD rightRank [])) cell).1) :
    let high := cellMax (relativeLoads division.loads) leftRank rightRank
      (itemWeights weights (division.partitions.getD leftRank []))
      (itemWeights weights (division.partitions.getD rightRank [])) cell
    let low := cellMin (relativeLoads division.loads) leftRank rightRank
      (itemWeights weights (division.partitions.getD leftRank []))
      (itemWeights weights (division.partitions.getD rightRank [])) cell
    (high, high - low) = shift (maxLoad division.loads)
      (score ((cellSwap leftRank rightRank cell).loads weights division)) := by
  intro high low
  have loadsInside : rightRank < division.loads.length := by rwa [division.loaded]
  have relativeInside : rightRank < (relativeLoads division.loads).length := by
    rwa [relativeLoads, List.length_map]
  have rank : ∀ index, index < division.loads.length →
      (relativeLoads division.loads).getD index 0 =
        division.loads.getD index 0 - maxLoad division.loads := by
    intro index isInside
    have mapped : index < (relativeLoads division.loads).length := by
      rwa [relativeLoads, List.length_map]
    rw [List.getD_eq_getElem _ _ mapped, List.getD_eq_getElem _ _ isInside]
    simp only [relativeLoads, List.getElem_map]
  obtain ⟨lowest, highest⟩ := fits
  have isHigh := max_after_exchange (relativeLoads division.loads) leftRank rightRank ascending
    relativeInside _ (cellLoads (relativeLoads division.loads) leftRank rightRank
      (itemWeights weights (division.partitions.getD leftRank []))
      (itemWeights weights (division.partitions.getD rightRank [])) cell).2 _ lowest
  have isLow := min_after_exchange (relativeLoads division.loads) leftRank rightRank ascending
    relativeInside _ (cellLoads (relativeLoads division.loads) leftRank rightRank
      (itemWeights weights (division.partitions.getD leftRank []))
      (itemWeights weights (division.partitions.getD rightRank [])) cell).2 _ highest
  have exchanged : ((relativeLoads division.loads).set leftRank
        (cellLoads (relativeLoads division.loads) leftRank rightRank
          (itemWeights weights (division.partitions.getD leftRank []))
          (itemWeights weights (division.partitions.getD rightRank [])) cell).1).set rightRank
        (cellLoads (relativeLoads division.loads) leftRank rightRank
          (itemWeights weights (division.partitions.getD leftRank []))
          (itemWeights weights (division.partitions.getD rightRank [])) cell).2 =
      ((cellSwap leftRank rightRank cell).loads weights division).map
        (fun load => load - maxLoad division.loads) := by
    simp only [cellLoads, rank leftRank (by omega), rank rightRank loadsInside,
      item_weights_getD _ _ _ leftInside, item_weights_getD _ _ _ rightInside]
    simp only [Swap.loads, cellSwap, List.map_set, relativeLoads]
    congr 1
    · congr 1
      omega
    · omega
  have nonempty : (cellSwap leftRank rightRank cell).loads weights division ≠ [] := by
    apply List.ne_nil_of_length_pos
    simp only [Swap.loads, List.length_set]
    omega
  obtain ⟨shiftedMax, shiftedMin⟩ := relative_extremes _ nonempty (maxLoad division.loads)
  rw [exchanged, shiftedMax] at isHigh
  rw [exchanged, shiftedMin] at isLow
  have highEq : high = _ := isHigh
  have lowEq : low = _ := isLow
  rw [highEq, lowEq, shift, score]
  simp only [Prod.mk.injEq, true_and]
  omega

/-! ## The search on words chooses the same exchange -/

theorem mem_cells {rows columns : Nat} {cell : Nat × Nat} :
    cell ∈ cells rows columns ↔ cell.1 < rows ∧ cell.2 < columns := by
  obtain ⟨row, column⟩ := cell
  simp only [cells, List.mem_flatMap, List.mem_range, List.mem_map, Prod.mk.injEq]
  constructor
  · rintro ⟨other, isRow, another, isColumn, rfl, rfl⟩
    exact ⟨isRow, isColumn⟩
  · rintro ⟨isRow, isColumn⟩
    exact ⟨row, isRow, column, isColumn, rfl, rfl⟩

theorem cells_succ (rows columns : Nat) :
    cells (rows + 1) columns =
      cells rows columns ++ (List.range columns).map (fun column => (rows, column)) := by
  rw [cells, List.range_succ, List.flatMap_append, List.flatMap_singleton]
  rfl

theorem cells_length (rows columns : Nat) : (cells rows columns).length = rows * columns := by
  induction rows with
  | zero => rw [Nat.zero_mul]; rfl
  | succ rows inductionHypothesis =>
    rw [cells_succ, List.length_append, inductionHypothesis, List.length_map, List.length_range,
      Nat.succ_mul]

/-- A position in the flat array stands for its quotient and its remainder. -/
theorem cells_position (rows columns : Nat) (before after : List (Nat × Nat)) (cell : Nat × Nat)
    (split : cells rows columns = before ++ cell :: after) :
    cell = (before.length / columns, before.length % columns) := by
  induction rows generalizing after with
  | zero => simp [cells] at split
  | succ rows inductionHypothesis =>
    rw [cells_succ] at split
    by_cases earlier : before.length < (cells rows columns).length
    · obtain ⟨rest, isRest, -⟩ : ∃ rest, cells rows columns = before ++ cell :: rest ∧
          after = rest ++ (List.range columns).map (fun column => (rows, column)) := by
        rcases List.append_eq_append_iff.mp split with ⟨gap, isBefore, -⟩ | ⟨gap, isFront, isBack⟩
        · rw [isBefore, List.length_append] at earlier
          omega
        · cases gap with
          | nil =>
            rw [isFront, List.append_nil] at earlier
            omega
          | cons first rest =>
            obtain ⟨rfl, rfl⟩ := List.cons.inj isBack
            exact ⟨rest, isFront, rfl⟩
      exact inductionHypothesis rest isRest
    · obtain ⟨offset, isOffset⟩ := Nat.exists_eq_add_of_le (Nat.le_of_not_lt earlier)
      have found : (cells rows columns ++
          (List.range columns).map (fun column => (rows, column)))[before.length]? = some cell := by
        rw [split]
        simp
      rw [List.getElem?_append_right (Nat.le_of_not_lt earlier), isOffset, Nat.add_sub_cancel_left,
        List.getElem?_map] at found
      obtain ⟨column, isColumn, rfl⟩ := Option.map_eq_some_iff.mp found
      obtain ⟨inside, rfl⟩ := List.getElem?_eq_some_iff.mp isColumn
      rw [List.length_range] at inside
      rw [List.getElem_range, isOffset, cells_length]
      have positive : 0 < columns := by omega
      rw [Nat.add_comm, Nat.add_mul_div_right _ _ positive, Nat.div_eq_of_lt inside,
        Nat.add_mul_mod_self_right, Nat.mod_eq_of_lt inside, Nat.zero_add]

/-- All exchanges, one block for each pair of groups. -/
theorem candidates_blocks (partitions : List (List Nat)) :
    candidates partitions = (rankPairs partitions.length).flatMap (fun ranks =>
      (cells (partitions.getD ranks.1 []).length (partitions.getD ranks.2 []).length).map
        (cellSwap ranks.1 ranks.2)) := by
  rw [candidates, rankPairs, List.flatMap_assoc]
  apply List.flatMap_congr
  intro leftRank _
  rw [List.flatMap_map]
  apply List.flatMap_congr
  intro rightRank _
  rw [cells, List.map_flatMap]
  apply List.flatMap_congr
  intro leftPos _
  rw [List.map_map]
  rfl

theorem mem_rankPairs {groups : Nat} {ranks : Nat × Nat} (member : ranks ∈ rankPairs groups) :
    ranks.1 < ranks.2 ∧ ranks.2 < groups := by
  simp only [rankPairs, List.mem_flatMap, List.mem_map, List.mem_filter, List.mem_range,
    decide_eq_true_eq] at member
  obtain ⟨leftRank, -, rightRank, ⟨inside, ascending⟩, rfl⟩ := member
  exact ⟨ascending, inside⟩

/-- Whether words hold every result of a search. -/
def WordSafe (weights : List Int) (division : Division) : Prop :=
  maxLoad division.loads - minLoad division.loads + 4 * maxWeight weights < highest

instance (weights : List Int) (division : Division) : Decidable (WordSafe weights division) :=
  inferInstanceAs (Decidable (_ < _))

theorem maxWeight_bounds (weights : List Int) :
    0 ≤ maxWeight weights ∧
      ∀ weight ∈ weights, -maxWeight weights ≤ weight ∧ weight ≤ maxWeight weights := by
  rw [maxWeight]
  cases largest : (weights.map (fun weight => (weight.natAbs : Int))).max? with
  | none =>
    rw [List.max?_eq_none_iff, List.map_eq_nil_iff] at largest
    rw [largest]
    exact ⟨le_refl _, fun _ impossible => absurd impossible List.not_mem_nil⟩
  | some top =>
    obtain ⟨member, above⟩ := List.max?_eq_some_iff.mp largest
    rw [Option.getD_some]
    constructor
    · obtain ⟨weight, -, rfl⟩ := List.mem_map.mp member
      exact Int.natCast_nonneg _
    · intro weight isWeight
      have below := above _ (List.mem_map_of_mem isWeight)
      omega

theorem item_weights_bounds (weights : List Int) (partition : List Nat) :
    ∀ weight ∈ itemWeights weights partition,
      -maxWeight weights ≤ weight ∧ weight ≤ maxWeight weights := by
  intro weight member
  obtain ⟨idx, -, rfl⟩ := List.mem_map.mp member
  obtain ⟨positive, bounded⟩ := maxWeight_bounds weights
  exact getD_bounded (by omega) positive bounded idx

/-- The arrays of any pair of groups of a division. -/
theorem division_near (weights : List Int) (division : Division) (left right : List Nat) :
    Near (relativeLoads division.loads) (itemWeights weights left) (itemWeights weights right)
      (maxLoad division.loads - minLoad division.loads) (maxWeight weights) where
  spread_nonneg := by
    have := min_le_max division.loads
    omega
  largest_nonneg := (maxWeight_bounds weights).1
  loads := by
    intro relative member
    obtain ⟨load, isLoad, rfl⟩ := List.mem_map.mp member
    cases largest : division.loads.max? with
    | none =>
      rw [List.max?_eq_none_iff] at largest
      exact absurd (largest ▸ isLoad) List.not_mem_nil
    | some top =>
      cases smallest : division.loads.min? with
      | none =>
        rw [List.min?_eq_none_iff] at smallest
        exact absurd (smallest ▸ isLoad) List.not_mem_nil
      | some low =>
        have below := (List.max?_eq_some_iff.mp largest).2 load isLoad
        have above := (List.min?_eq_some_iff.mp smallest).2 load isLoad
        simp only [maxLoad, minLoad, largest, smallest, Option.getD_some]
        omega
  left := item_weights_bounds weights left
  right := item_weights_bounds weights right

/-- Searching a pair of groups on words comes to the same as scanning its
exchanges one by one. -/
theorem search_pair_scan (weights : List Int) (division : Division)
    (safe : WordSafe weights division) (ranks : Nat × Nat)
    (member : ranks ∈ rankPairs division.partitions.length) (best : (Int × Int) × Option Swap) :
    searchPair wrap weights division.partitions (relativeLoads division.loads) best ranks =
      FirstLowest.scan lower
        (fun swap => shift (maxLoad division.loads) (score (swap.loads weights division)))
        ((cells (division.partitions.getD ranks.1 []).length
          (division.partitions.getD ranks.2 []).length).map (cellSwap ranks.1 ranks.2)) best := by
  obtain ⟨ascending, inside⟩ := mem_rankPairs member
  obtain ⟨leftRank, rightRank⟩ := ranks
  simp only at ascending inside
  have near := division_near weights division (division.partitions.getD leftRank [])
    (division.partitions.getD rightRank [])
  have scores := cell_score weights division leftRank rightRank ascending inside
  have extremes := near.cell_extremes leftRank rightRank safe
  have loads := near.cell_loads leftRank rightRank
  have exact := swap_grid_exact _ _ _ _ _ (near.grid_fits leftRank rightRank safe)
  obtain ⟨isMax, -, isDistance, -, -⟩ := swap_grid_cells (relativeLoads division.loads) leftRank
    rightRank (itemWeights weights (division.partitions.getD leftRank []))
    (itemWeights weights (division.partitions.getD rightRank []))
  simp only [searchPair]
  generalize division.partitions.getD leftRank [] = left at *
  generalize division.partitions.getD rightRank [] = right at *
  by_cases empty : (left.isEmpty || right.isEmpty) = true
  · have nothing : cells left.length right.length = [] := by
      rw [← List.length_eq_zero_iff, cells_length, Nat.mul_eq_zero]
      simpa using empty
    rw [if_pos empty, nothing]
    rfl
  · rw [if_neg empty, exact, isMax, isDistance, zipWith_of_map]
    have sizes : (itemWeights weights left).length = left.length ∧
        (itemWeights weights right).length = right.length :=
      ⟨List.length_map _, List.length_map _⟩
    rw [sizes.1, sizes.2]
    generalize isHigh : cellMax (relativeLoads division.loads) leftRank rightRank
      (itemWeights weights left) (itemWeights weights right) = high at *
    generalize isLow : cellMin (relativeLoads division.loads) leftRank rightRank
      (itemWeights weights left) (itemWeights weights right) = low at *
    have scored : ∀ cell ∈ cells left.length right.length,
        shift (maxLoad division.loads)
          (score ((cellSwap leftRank rightRank cell).loads weights division)) =
            (high cell, high cell - low cell) := by
      intro cell isCell
      obtain ⟨leftInside, rightInside⟩ := mem_cells.mp isCell
      have bounded := (loads cell).1
      have room : _ < highest := safe
      have positive := (maxWeight_bounds weights).1
      have apart := near.spread_nonneg
      refine (scores cell leftInside rightInside ?_).symm
      simp only [Fits, lowest, highest] at room ⊢
      omega
    have nonempty : cells left.length right.length ≠ [] := by
      rw [ne_eq, ← List.length_eq_zero_iff, cells_length, Nat.mul_eq_zero]
      simpa using empty
    obtain ⟨lowestMax, isLowest⟩ :
        ∃ lowestMax, ((cells left.length right.length).map high).min? = some lowestMax := by
      cases found : ((cells left.length right.length).map high).min? with
      | none =>
        rw [List.min?_eq_none_iff, List.map_eq_nil_iff] at found
        exact absurd found nonempty
      | some lowestMax => exact ⟨lowestMax, rfl⟩
    have masked : ∀ cell ∈ cells left.length right.length, high cell - low cell < highest := by
      intro cell _
      have bounded := extremes cell
      have room : _ < highest := safe
      simp only at bounded
      omega
    obtain ⟨before, cell, after, split, position, isChosen, higher, least⟩ :=
      FirstLowest.argmin_masked high (fun cell => high cell - low cell) highest _ nonempty masked
        lowestMax isLowest
    have here : cell ∈ cells left.length right.length := by
      rw [split]
      exact List.mem_append_right _ List.mem_cons_self
    have mapped : (cells left.length right.length).map (cellSwap leftRank rightRank) =
        before.map (cellSwap leftRank rightRank) ++
          cellSwap leftRank rightRank cell :: after.map (cellSwap leftRank rightRank) := by
      rw [split, List.map_append, List.map_cons]
    rw [FirstLowest.scan_block lower_iff_lex _ mapped
      (by
        intro other isOther
        obtain ⟨earlier, isEarlier, rfl⟩ := List.mem_map.mp isOther
        rw [scored cell here, scored earlier (split ▸ List.mem_append_left _ isEarlier)]
        exact higher earlier isEarlier)
      (by
        intro other isOther
        obtain ⟨later, isLater, rfl⟩ := List.mem_map.mp isOther
        rw [scored cell here,
          scored later (split ▸ List.mem_append_right _ (List.mem_cons_of_mem _ isLater))]
        exact least later isLater) best]
    have entry : ((cells left.length right.length).map (fun other =>
        if high other = lowestMax then high other - low other else highest)).getD before.length 0 =
          high cell - low cell := by
      rw [split, List.getD_eq_getElem?_getD, List.getElem?_map, List.getElem?_append_right (le_refl _),
        Nat.sub_self, List.getElem?_cons_zero, Option.map_some, Option.getD_some, if_pos isChosen]
    have whole := cells_position left.length right.length before after cell split
    rw [isLowest, Option.getD_some, position, entry, scored cell here, isChosen]
    by_cases worse : best.1.1 < lowestMax
    · have notLower : ¬ lower (lowestMax, lowestMax - low cell) best.1 = true := by
        rw [lower_iff]
        simp only
        omega
      rw [if_pos worse, if_neg notLower]
    · rw [if_neg worse, whole]
      rfl

/-- The search on words chooses the exchange that the scan chooses. -/
theorem best_swap_words_eq (weights : List Int) (division : Division)
    (safe : WordSafe weights division) :
    bestSwapWords weights division = bestSwap weights division := by
  have searched : ∀ (pairs : List (Nat × Nat)) (best : (Int × Int) × Option Swap),
      (∀ ranks ∈ pairs, ranks ∈ rankPairs division.partitions.length) →
      pairs.foldl (searchPair wrap weights division.partitions (relativeLoads division.loads)) best =
        FirstLowest.scan lower
          (fun swap => shift (maxLoad division.loads) (score (swap.loads weights division)))
          (pairs.flatMap (fun ranks => (cells (division.partitions.getD ranks.1 []).length
            (division.partitions.getD ranks.2 []).length).map (cellSwap ranks.1 ranks.2))) best := by
    intro pairs
    induction pairs with
    | nil => exact fun best _ => rfl
    | cons ranks rest inductionHypothesis =>
      intro best inside
      rw [List.foldl_cons, List.flatMap_cons, FirstLowest.scan_append,
        search_pair_scan weights division safe ranks (inside ranks List.mem_cons_self)]
      exact inductionHypothesis _ (fun other isOther => inside other (List.mem_cons_of_mem _ isOther))
  have present : ((0, maxLoad division.loads - minLoad division.loads) : Int × Int) =
      shift (maxLoad division.loads) (score division.loads) := by
    simp only [shift, score, sub_self]
  rw [bestSwapWords, searched _ _ (fun _ member => member), ← candidates_blocks, present]
  have shifted := FirstLowest.scan_shifted lower (shift (maxLoad division.loads))
    (shift_lower (maxLoad division.loads)) (fun swap : Swap => score (swap.loads weights division))
    (candidates division.partitions) (score division.loads, none)
  have same := congrArg Prod.snd shifted
  exact same

/-! ## The refinement -/

/-- The loop on words, which leaves for integers of any size where words might not
hold a result. -/
def refineWords (weights : List Int) (division : Division) : List (List Nat) :=
  if _safe : WordSafe weights division then
    match _chosen : bestSwapWords weights division with
    | none => division.partitions
    | some swap => refineWords weights (swap.apply weights division)
  else refineScalar weights (Division.init weights division.partitions)
termination_by refineMeasure division
decreasing_by
  exact refine_decreases weights division swap (best_swap_words_eq weights division _safe ▸ _chosen)

/-- Apply the best pairwise swap until none lowers the score. The weights are
integers, and they are searched as words when four times the largest fits. -/
def refineBySwapping (weights : List Int) (partitions : List (List Nat)) :
    Except String (List (List Nat)) :=
  if highest ≤ 4 * maxWeight weights then refineBySwappingScalar weights partitions
  else if partitions.isEmpty then .error "max() iterable argument is empty"
  else .ok (refineWords weights (Division.init weights partitions))

/-- Partition item indices into groups of near-equal total weight. -/
def balancedPartition (weights : List Int) (numPartitions : Nat) :
    Except String (List (List Nat)) :=
  (karmarkarKarp weights numPartitions).bind (refineBySwapping weights)

/-- An exchange leaves the loads that its groups have. -/
theorem swap_apply_init (weights : List Int) (partitions : List (List Nat)) (swap : Swap)
    (candidate : swap ∈ candidates partitions) :
    swap.apply weights (Division.init weights partitions) =
      Division.init weights (swap.partitions partitions) := by
  obtain ⟨ascending, inside, leftInside, rightInside⟩ := candidate_bounds partitions swap candidate
  have load : ∀ rank, rank < partitions.length →
      (partitionLoads weights partitions).getD rank 0 =
        (itemWeights weights (partitions.getD rank [])).sum := by
    intro rank isInside
    have mapped : rank < (partitionLoads weights partitions).length := by
      rwa [partitionLoads, List.length_map]
    rw [List.getD_eq_getElem _ _ mapped, List.getD_eq_getElem _ _ isInside]
    simp only [partitionLoads, itemWeights, List.getElem_map]
  have replaced : ∀ (partition : List Nat) (position idx : Nat), position < partition.length →
      (itemWeights weights (partition.set position idx)).sum =
        (itemWeights weights partition).sum +
          (weights.getD idx 0 - weights.getD (partition.getD position 0) 0) := by
    intro partition position idx isInside
    have found : partition[position]? = some (partition.getD position 0) := by
      rw [List.getD_eq_getElem _ _ isInside, List.getElem?_eq_getElem]
    have change := Pool.sum_set (fun other => weights.getD other 0) partition position _ idx found
    simp only [itemWeights]
    omega
  have after : partitionLoads weights (swap.partitions partitions) =
      ((partitionLoads weights partitions).set swap.leftRank
        (itemWeights weights ((partitions.getD swap.leftRank []).set swap.leftPos
          ((partitions.getD swap.rightRank []).getD swap.rightPos 0))).sum).set swap.rightRank
        (itemWeights weights ((partitions.getD swap.rightRank []).set swap.rightPos
          ((partitions.getD swap.leftRank []).getD swap.leftPos 0))).sum := by
    rw [partitionLoads, Swap.partitions, List.map_set, List.map_set]
    rfl
  have loads : swap.loads weights (Division.init weights partitions) =
      partitionLoads weights (swap.partitions partitions) := by
    rw [after, replaced _ _ _ leftInside, replaced _ _ _ rightInside]
    simp only [Swap.loads, Division.init, load swap.leftRank (by omega), load swap.rightRank inside]
    congr 1
    omega
  simp only [Swap.apply, Division.init, Division.mk.injEq, true_and]
  exact loads

/-- The loop on words refines as the loop in integers does, wherever it leaves for
the latter. -/
theorem refine_words_eq (weights : List Int) (partitions : List (List Nat)) :
    refineWords weights (Division.init weights partitions) =
      refineScalar weights (Division.init weights partitions) := by
  obtain ⟨division, isDivision⟩ : ∃ division, division = Division.init weights partitions := ⟨_, rfl⟩
  rw [← isDivision]
  induction division using refineWords.induct weights generalizing partitions with
  | case1 division safe finished =>
    rw [refineWords, dif_pos safe, refineScalar, ← best_swap_words_eq weights division safe, finished]
  | case2 division safe swap chosen inductionHypothesis =>
    have isBest : bestSwap weights division = some swap :=
      best_swap_words_eq weights division safe ▸ chosen
    have candidate := (best_swap_lowers weights division swap isBest).1
    subst isDivision
    have applied := swap_apply_init weights partitions swap candidate
    rw [refineWords, dif_pos safe, chosen, refineScalar, isBest]
    exact inductionHypothesis _ applied
  | case3 division unsafeHere =>
    subst isDivision
    rw [refineWords, dif_neg unsafeHere]
    rfl

theorem refine_by_swapping_eq (weights : List Int) (partitions : List (List Nat)) :
    refineBySwapping weights partitions = refineBySwappingScalar weights partitions := by
  simp only [refineBySwapping, refineBySwappingScalar, refine_words_eq, ite_self]

/-- For all weights and groups the search on words refines as the search in
integers does. Wherever it uses words, it chooses the same exchange in each
round, and every word it computes is the exact result. -/
theorem refine_by_swapping_exact (weights : List Int) (partitions : List (List Nat)) :
    refineBySwapping weights partitions = refineBySwappingScalar weights partitions ∧
      ∀ division : Division, WordSafe weights division →
        bestSwapWords weights division = bestSwap weights division ∧
        (∀ weight ∈ weights, Fits weight) ∧
        (∀ load ∈ relativeLoads division.loads, Fits load) ∧
        ∀ (leftRank rightRank : Nat) (left right : List Nat),
          (∀ value ∈ (swapGrid id (relativeLoads division.loads) leftRank rightRank
            (itemWeights weights left) (itemWeights weights right)).values, Fits value) ∧
          swapGrid wrap (relativeLoads division.loads) leftRank rightRank
              (itemWeights weights left) (itemWeights weights right) =
            swapGrid id (relativeLoads division.loads) leftRank rightRank
              (itemWeights weights left) (itemWeights weights right) := by
  refine ⟨refine_by_swapping_eq weights partitions, ?_⟩
  intro division safe
  have near := division_near weights division
  have room : _ < highest := safe
  obtain ⟨positive, bounded⟩ := maxWeight_bounds weights
  have apart := (near [] []).spread_nonneg
  refine ⟨best_swap_words_eq weights division safe, ?_, ?_, ?_⟩
  · intro weight member
    have range := bounded weight member
    simp only [Fits, lowest, highest] at room ⊢
    omega
  · intro load member
    have range := (near [] []).loads load member
    simp only [Fits, lowest, highest] at room ⊢
    omega
  · intro leftRank rightRank left right
    have fits := (near left right).grid_fits leftRank rightRank safe
    exact ⟨fits, swap_grid_exact _ _ _ _ _ fits⟩

/-- Two groups of two items: the words choose the exchange that the scan chooses,
and a weight of half the range leaves for integers. -/
theorem refine_by_swapping_exact_two_groups :
    bestSwapWords [1, 2, 10, 11] (Division.init [1, 2, 10, 11] [[0, 1], [2, 3]]) =
        bestSwap [1, 2, 10, 11] (Division.init [1, 2, 10, 11] [[0, 1], [2, 3]]) ∧
      bestSwapWords [1, 2, 10, 11] (Division.init [1, 2, 10, 11] [[0, 1], [2, 3]]) =
        some ⟨0, 1, 0, 0⟩ ∧
      refineBySwapping [2 ^ 62, 1, -2 ^ 62, 5] [[0, 1], [2, 3]] =
        refineBySwappingScalar [2 ^ 62, 1, -2 ^ 62, 5] [[0, 1], [2, 3]] := by
  obtain ⟨-, rounds⟩ := refine_by_swapping_exact [1, 2, 10, 11] [[0, 1], [2, 3]]
  obtain ⟨same, -⟩ := rounds (Division.init [1, 2, 10, 11] [[0, 1], [2, 3]]) (by decide +kernel)
  exact ⟨same, by decide +kernel, (refine_by_swapping_exact _ _).1⟩

/-- Whatever the weights are, a positive multiple of `numPartitions` items is
split into `numPartitions` groups of the same number of items, each item in one
group. -/
theorem balanced_partition_even (weights : List Int) (numPartitions : Nat)
    (positive : 0 < numPartitions) (nonempty : weights ≠ [])
    (divides : weights.length % numPartitions = 0) :
    ∃ partitions count, balancedPartition weights numPartitions = .ok partitions ∧
      partitions.length = numPartitions ∧ (∀ partition ∈ partitions, partition.length = count) ∧
      partitions.flatten.Perm (List.range weights.length) := by
  obtain ⟨initial, count, differenced, groups, even, items⟩ :=
    karmarkar_karp_even weights numPartitions positive nonempty divides
  obtain ⟨refinedGroups, refinedEven, refinedItems⟩ :=
    refine_keeps_items weights (Division.init weights initial) count even
  refine ⟨_, count, ?_, refinedGroups.trans groups, refinedEven, refinedItems.trans items⟩
  have some : initial.isEmpty = false := by
    rw [List.isEmpty_eq_false_iff, ← List.length_pos_iff, groups]
    exact positive
  rw [balancedPartition, differenced, Except.bind, refine_by_swapping_eq, refineBySwappingScalar, some]
  rfl

end PrimeRl.Trainer.Partition
