import Mathlib.Algebra.Ring.Int.Defs
import Mathlib.Algebra.Ring.Nat
import PrimeRl.Models.Ulysses
import PrimeRl.Utils.Cp

/-!
# Attention over exchanged heads is attention

An exchange gives every rank the full sequence of a contiguous slice of the
heads, and the exchange back undoes it. A kernel that treats each head with its
own group's keys and values therefore computes on the slices the slices of what
it computes on all heads, so each rank ends with its shard of that.
-/

namespace PrimeRl.Models.Ulysses

open Exchange Fallible

universe u
variable {Vec : Type u}

/-- The tensors of the ranks shard a sequence evenly. -/
structure Sharded (cpSize sLocal heads : Nat) (group : List (HeadTensor Vec)) : Prop where
  ranks : group.length = cpSize
  heads : ∀ t ∈ group, t.heads = heads
  positions : ∀ t ∈ group, t.rows.length = sLocal

/-- The sharded sequence. -/
def Sharded.gather {cpSize sLocal heads : Nat} {group : List (HeadTensor Vec)}
    (sharded : Sharded cpSize sLocal heads group) : HeadTensor Vec where
  heads := heads
  rows := group.flatMap HeadTensor.rows
  even := by
    intro row member
    obtain ⟨t, inGroup, inRows⟩ := List.mem_flatMap.mp member
    rw [t.even row inRows, sharded.heads t inGroup]

/-- The heads of one rank at a position. -/
def headSlice (hLocal rank : Nat) (row : List Vec) : List Vec :=
  (row.drop (rank * hLocal)).take hLocal

variable {cpSize sLocal heads hLocal : Nat} {group : List (HeadTensor Vec)}

theorem Sharded.one_shape (sharded : Sharded cpSize sLocal heads group) {t : HeadTensor Vec}
    (inGroup : t ∈ group) : OneShape cpSize group t :=
  ⟨sharded.ranks, fun other member =>
    ⟨(sharded.heads other member).trans (sharded.heads t inGroup).symm,
      (sharded.positions other member).trans (sharded.positions t inGroup).symm⟩⟩

/-- The sequence is as long as its shards together. -/
theorem Sharded.gather_length (sharded : Sharded cpSize sLocal heads group) :
    sharded.gather.rows.length = cpSize * sLocal := by
  have even : Rectangular sLocal (group.map HeadTensor.rows) := by
    intro rows member
    obtain ⟨t, inGroup, rfl⟩ := List.mem_map.mp member
    exact sharded.positions t inGroup
  have total := flatten_length even
  rw [List.length_map, sharded.ranks, ← List.flatMap_def] at total
  exact total

/-- The shards are what the sequence is cut into. -/
theorem Sharded.cut_gather (sharded : Sharded cpSize sLocal heads group) :
    cut cpSize sLocal sharded.gather.rows = group.map HeadTensor.rows := by
  have even : Rectangular sLocal (group.map HeadTensor.rows) := by
    intro rows member
    obtain ⟨t, inGroup, rfl⟩ := List.mem_map.mp member
    exact sharded.positions t inGroup
  have cutBack := cut_of_flatten even
  rw [List.length_map, sharded.ranks, ← List.flatMap_def] at cutBack
  exact cutBack

/-- A rank's tensor is its shard of the sequence. -/
theorem Sharded.shard_gather (sharded : Sharded cpSize sLocal heads group) (positive : 0 < sLocal)
    {rank : Nat} {t : HeadTensor Vec} (listed : group[rank]? = some t) :
    Utils.Cp.shardForCp sharded.gather.rows rank cpSize = some t.rows := by
  have inside : rank < cpSize := sharded.ranks ▸ (List.getElem?_eq_some_iff.mp listed).1
  have ranks : 0 < cpSize := Nat.zero_lt_of_lt inside
  have total := sharded.gather_length
  have quotient : sharded.gather.rows.length / cpSize = sLocal := by
    rw [total, Nat.mul_div_cancel_left sLocal ranks]
  rw [Utils.Cp.shard_for_cp_of_dvd (total ▸ Nat.mul_pos ranks positive) ⟨sLocal, total⟩ inside,
    quotient, ← cut_get _ inside, sharded.cut_gather, List.getElem?_map, listed]
  rfl

/-! ## Sequence to heads -/

theorem cut_row_slice {rank : Nat} (row : List Vec) (inside : rank < cpSize) :
    (cut cpSize hLocal row)[rank]? = some (headSlice hLocal rank row) := cut_get row inside

/-- Every rank receives its slice of the heads at all positions, in their order. -/
theorem seq_to_head_ok (sharded : Sharded cpSize sLocal heads group) (divides : cpSize ∣ heads)
    {rank : Nat} (inside : rank < cpSize) :
    ∃ out, allToAllSeqToHead group cpSize rank = .ok out ∧ out.heads = heads / cpSize ∧
      out.rows = sharded.gather.rows.map (headSlice (heads / cpSize) rank) := by
  obtain ⟨t, listed⟩ : ∃ t, group[rank]? = some t :=
    ⟨_, List.getElem?_eq_getElem (sharded.ranks ▸ inside)⟩
  have inGroup := List.mem_of_getElem? listed
  have sameHeads := sharded.heads t inGroup
  have evenly : t.heads % cpSize = 0 := by
    rw [sameHeads]
    exact Nat.mod_eq_zero_of_dvd divides
  have shape := sharded.one_shape inGroup
  rw [allToAllSeqToHead, listed]
  dsimp only
  rw [dif_pos evenly, dif_pos shape]
  refine ⟨_, rfl, congrArg (· / cpSize) sameHeads, ?_⟩
  have received : allToAllSingle
        (group.map (fun t => headBlocks cpSize (heads / cpSize) t.rows)) rank =
      group.map (fun t => t.rows.map (headSlice (heads / cpSize) rank)) := by
    apply column_map
    intro other _
    rw [headBlocks, transpose_get _ inside]
    apply congrArg
    exact column_map other.rows _ _ rank (fun row _ => cut_row_slice row inside)
  simp only [sameHeads]
  rw [receivedHeads, received, Sharded.gather, List.map_flatMap, List.flatMap_def]

/-! ## Heads to sequence -/

/-- Every rank receives its positions of all slices, and joins the slices. -/
theorem head_to_seq_ok (sharded : Sharded cpSize (cpSize * sLocal) hLocal group) {rank : Nat}
    (inside : rank < cpSize) :
    ∃ out, allToAllHeadToSeq group cpSize rank = .ok out ∧ out.heads = hLocal * cpSize ∧
      out.rows = (transpose sLocal (group.map
        (fun t => (t.rows.drop (rank * sLocal)).take sLocal))).map List.flatten := by
  have inRange : rank < group.length := sharded.ranks ▸ inside
  have inGroup : group.get ⟨rank, inRange⟩ ∈ group := List.get_mem _ _
  have count := sharded.positions _ inGroup
  have evenly : (group.get ⟨rank, inRange⟩).rows.length % cpSize = 0 := by
    rw [count]
    exact Nat.mul_mod_right cpSize sLocal
  have quotient : (group.get ⟨rank, inRange⟩).rows.length / cpSize = sLocal := by
    rw [count, Nat.mul_div_cancel_left sLocal (Nat.zero_lt_of_lt inside)]
  rw [allToAllHeadToSeq, dif_pos inRange]
  dsimp only
  rw [dif_pos evenly, dif_pos (sharded.one_shape inGroup)]
  refine ⟨_, rfl, congrArg (· * cpSize) (sharded.heads _ inGroup), ?_⟩
  have received : allToAllSingle (group.map (fun t => cut cpSize sLocal t.rows)) rank =
      group.map (fun t => (t.rows.drop (rank * sLocal)).take sLocal) :=
    column_map group _ _ rank (fun t _ => cut_get t.rows inside)
  simp only [quotient]
  rw [receivedPositions, received]

/-! ## There and back -/

/-- Slices of the heads of a sequence come back as its shard. -/
theorem head_to_seq_slices (sharded : Sharded cpSize (cpSize * sLocal) hLocal group)
    (rows : List (List Vec)) (even : Rectangular (cpSize * hLocal) rows)
    (total : rows.length = cpSize * sLocal)
    (slices : ∀ (index : Nat) (t : HeadTensor Vec), group[index]? = some t →
      t.rows = rows.map (headSlice hLocal index))
    {rank : Nat} (inside : rank < cpSize) :
    ∃ out, allToAllHeadToSeq group cpSize rank = .ok out ∧ out.heads = hLocal * cpSize ∧
      out.rows = (rows.drop (rank * sLocal)).take sLocal := by
  obtain ⟨out, received, outHeads, outRows⟩ := head_to_seq_ok sharded inside
  refine ⟨out, received, outHeads, ?_⟩
  have shardLength : ((rows.drop (rank * sLocal)).take sLocal).length = sLocal := by
    have enough : rank * sLocal + sLocal ≤ cpSize * sLocal := by
      rw [← Nat.succ_mul]
      exact Nat.mul_le_mul_right _ inside
    rw [List.length_take, List.length_drop, total]
    omega
  -- What comes in is the transposed shard, each position cut into its slices.
  have sent : group.map (fun t => (t.rows.drop (rank * sLocal)).take sLocal) =
      transpose cpSize (((rows.drop (rank * sLocal)).take sLocal).map (cut cpSize hLocal)) := by
    apply List.ext_getElem?
    intro index
    rw [List.getElem?_map]
    by_cases within : index < cpSize
    · rw [transpose_get _ within]
      obtain ⟨t, listed⟩ : ∃ t, group[index]? = some t :=
        ⟨_, List.getElem?_eq_getElem (sharded.ranks ▸ within)⟩
      rw [listed, Option.map_some, slices index t listed,
        column_map _ _ _ index (fun row _ => cut_row_slice row within), ← List.map_drop,
        ← List.map_take]
    · rw [List.getElem?_eq_none (by rw [sharded.ranks]; omega), Option.map_none,
        List.getElem?_eq_none (by rw [transpose_length]; omega)]
  have cutEven : Rectangular cpSize
      (((rows.drop (rank * sLocal)).take sLocal).map (cut cpSize hLocal)) := by
    intro blocks member
    obtain ⟨row, -, rfl⟩ := List.mem_map.mp member
    exact cut_length cpSize hLocal row
  have back := transpose_transpose cutEven
  rw [List.length_map, shardLength] at back
  rw [outRows, sent, back, List.map_map]
  refine (List.map_congr_left ?_).trans (List.map_id _)
  intro row member
  exact cut_flatten (even row (List.mem_of_mem_drop (List.mem_of_mem_take member)))

/-- Exchanging sequence for heads and back gives every rank its tensor again. -/
theorem heads_there_and_back (sharded : Sharded cpSize sLocal heads group)
    (divides : cpSize ∣ heads) :
    ∃ exchanged, collect (allToAllSeqToHead group cpSize) (List.range cpSize) = .ok exchanged ∧
      collect (allToAllHeadToSeq exchanged cpSize) (List.range cpSize) = .ok group := by
  obtain ⟨exchanged, collected, ranks, each⟩ :=
    collect_range (fun rank inside => seq_to_head_ok sharded divides inside)
  refine ⟨exchanged, collected, ?_⟩
  have spread : Sharded cpSize (cpSize * sLocal) (heads / cpSize) exchanged := by
    refine ⟨ranks, ?_, ?_⟩
    · intro t member
      obtain ⟨rank, listed⟩ := List.mem_iff_getElem?.mp member
      exact (each rank t listed).2.1
    · intro t member
      obtain ⟨rank, listed⟩ := List.mem_iff_getElem?.mp member
      rw [(each rank t listed).2.2, List.length_map, sharded.gather_length]
  have even : Rectangular (cpSize * (heads / cpSize)) sharded.gather.rows := by
    rw [Nat.mul_div_cancel' divides]
    exact sharded.gather.even
  rw [← sharded.ranks]
  apply collect_range_eq
  intro rank t listed
  have inside : rank < cpSize := sharded.ranks ▸ (List.getElem?_eq_some_iff.mp listed).1
  obtain ⟨out, received, outHeads, outRows⟩ := head_to_seq_slices spread sharded.gather.rows even
    sharded.gather_length (fun index t listed => (each index t listed).2.2) inside
  rw [sharded.ranks, received]
  apply congrArg
  have inGroup := List.mem_of_getElem? listed
  apply HeadTensor.ext
  · rw [outHeads, sharded.heads t inGroup, Nat.div_mul_cancel divides]
  · have shard : (cut cpSize sLocal sharded.gather.rows)[rank]? = _ :=
      cut_get sharded.gather.rows inside
    rw [sharded.cut_gather, List.getElem?_map, listed] at shard
    rw [outRows]
    exact (Option.some.inj shard).symm

/-- A slice of joined slices is that slice. -/
theorem head_slice_flatten {rank : Nat} {joined : List (List Vec)} (even : Rectangular hLocal joined)
    (count : joined.length = cpSize) {slice : List Vec} (listed : joined[rank]? = some slice) :
    headSlice hLocal rank joined.flatten = slice := by
  have inside : rank < cpSize := count ▸ (List.getElem?_eq_some_iff.mp listed).1
  have block : (cut cpSize hLocal joined.flatten)[rank]? = some (headSlice hLocal rank joined.flatten) :=
    cut_row_slice joined.flatten inside
  rw [← count, cut_of_flatten even, listed] at block
  exact (Option.some.inj block).symm

/-- Slices of joined slices are a column. -/
theorem map_slices_eq_column {rank : Nat} {lines : List (List (List Vec))} (inside : rank < cpSize)
    (joined : ∀ line ∈ lines, Rectangular hLocal line ∧ line.length = cpSize) :
    lines.map (fun line => headSlice hLocal rank line.flatten) = column lines rank := by
  have read : ∀ line ∈ lines, (id line)[rank]? = some (headSlice hLocal rank line.flatten) := by
    intro line member
    obtain ⟨even, count⟩ := joined line member
    have present := List.getElem?_eq_getElem (count.symm ▸ inside : rank < line.length)
    rw [id, present, head_slice_flatten even count present]
  rw [← column_map lines id _ rank read, List.map_id]

/-- Exchanging heads for sequence and back gives every rank its tensor again. -/
theorem positions_there_and_back
    (spread : Sharded cpSize (cpSize * sLocal) hLocal group) (positive : 0 < cpSize) :
    ∃ exchanged, collect (allToAllHeadToSeq group cpSize) (List.range cpSize) = .ok exchanged ∧
      collect (allToAllSeqToHead exchanged cpSize) (List.range cpSize) = .ok group := by
  obtain ⟨exchanged, collected, ranks, each⟩ :=
    collect_range (fun rank inside => head_to_seq_ok spread inside)
  refine ⟨exchanged, collected, ?_⟩
  -- The positions of one rank, as blocks that the others held.
  have blockEven : ∀ rank < cpSize, Rectangular sLocal
      (group.map (fun t => (t.rows.drop (rank * sLocal)).take sLocal)) := by
    intro rank inside block member
    obtain ⟨t, inGroup, rfl⟩ := List.mem_map.mp member
    have enough : rank * sLocal + sLocal ≤ cpSize * sLocal := by
      rw [← Nat.succ_mul]
      exact Nat.mul_le_mul_right _ inside
    rw [List.length_take, List.length_drop, spread.positions t inGroup]
    omega
  have sharded : Sharded cpSize sLocal (hLocal * cpSize) exchanged := by
    refine ⟨ranks, ?_, ?_⟩
    · intro t member
      obtain ⟨rank, listed⟩ := List.mem_iff_getElem?.mp member
      exact (each rank t listed).2.1
    · intro t member
      obtain ⟨rank, listed⟩ := List.mem_iff_getElem?.mp member
      rw [(each rank t listed).2.2, List.length_map, transpose_length]
  rw [← spread.ranks]
  apply collect_range_eq
  intro rank t listed
  have inside : rank < cpSize := spread.ranks ▸ (List.getElem?_eq_some_iff.mp listed).1
  have inGroup := List.mem_of_getElem? listed
  obtain ⟨out, received, outHeads, outRows⟩ :=
    seq_to_head_ok sharded (Nat.dvd_mul_left cpSize hLocal) inside
  rw [Nat.mul_div_cancel hLocal positive] at outHeads outRows
  rw [spread.ranks, received]
  apply congrArg
  apply HeadTensor.ext
  · rw [outHeads, spread.heads t inGroup]
  · -- Its slice of each rank's positions is the block that rank had received from it.
    have blocks : exchanged.map (fun other => other.rows.map (headSlice hLocal rank)) =
        cut cpSize sLocal t.rows := by
      apply List.ext_getElem?
      intro index
      rw [List.getElem?_map]
      by_cases within : index < cpSize
      · obtain ⟨other, found⟩ : ∃ other, exchanged[index]? = some other :=
          ⟨_, List.getElem?_eq_getElem (ranks ▸ within)⟩
        have even := blockEven index within
        have block : (group.map (fun t => (t.rows.drop (index * sLocal)).take sLocal))[rank]? =
            some ((t.rows.drop (index * sLocal)).take sLocal) := by
          rw [List.getElem?_map, listed, Option.map_some]
        have slices : (transpose sLocal (group.map
            (fun t => (t.rows.drop (index * sLocal)).take sLocal))).map
              (fun line => headSlice hLocal rank line.flatten) =
            column (transpose sLocal (group.map
              (fun t => (t.rows.drop (index * sLocal)).take sLocal))) rank := by
          apply map_slices_eq_column inside
          intro line member
          refine ⟨?_, ?_⟩
          · obtain ⟨place, -, rfl⟩ := List.mem_map.mp member
            intro row inLine
            obtain ⟨_, sent, isRow⟩ := mem_column.mp inLine
            obtain ⟨other, inGroup, rfl⟩ := List.mem_map.mp sent
            rw [← spread.heads other inGroup]
            exact other.even row
              (List.mem_of_mem_drop (List.mem_of_mem_take (List.mem_of_getElem? isRow)))
          · rw [transpose_even even line member, List.length_map, spread.ranks]
        rw [found, Option.map_some, (each index other found).2.2, List.map_map, cut_get _ within]
        exact congrArg some (slices.trans (column_transpose even rank _ block))
      · rw [List.getElem?_eq_none (by omega), Option.map_none,
          List.getElem?_eq_none (by rw [cut_length]; omega)]
    rw [outRows, Sharded.gather, List.map_flatMap, List.flatMap_def, blocks]
    exact cut_flatten (spread.positions t inGroup)

/-! ## Attention -/

variable {Query Key Value Out : Type u} {Scalar : Type}

/-- Each query head with the key and value head of its group, over all positions. -/
def groupedRows (attend : List Query → List Key → List Value → Nat → Out) (q : HeadTensor Query)
    (k : HeadTensor Key) (v : HeadTensor Value) : List (List Out) :=
  (List.range q.rows.length).map (fun position => (List.range q.heads).map (fun head =>
    attend (column q.rows head) (column k.rows (head / (q.heads / k.heads)))
      (column v.rows (head / (q.heads / k.heads))) position))

/-- A kernel that computes each query head from its own group's key and value head. -/
def ComputesByGroups
    (flashFn : HeadTensor Query → HeadTensor Key → HeadTensor Value → FlashCall Scalar →
      FlashOutput Out) : Prop :=
  ∃ attend : FlashCall Scalar → List Query → List Key → List Value → Nat → Out,
    ∀ call q k v, k.heads = v.heads → k.heads ∣ q.heads → q.rows.length = k.rows.length →
      q.rows.length = v.rows.length →
      (flashFn q k v call).out.heads = q.heads ∧
        (flashFn q k v call).out.rows = groupedRows (attend call) q k v

/-- A head of a slice is a head of the whole. -/
theorem column_head_slices (rows : List (List Vec)) (rank : Nat) {head : Nat}
    (inside : head < hLocal) :
    column (rows.map (headSlice hLocal rank)) head = column rows (rank * hLocal + head) := by
  rw [column, List.filterMap_map, column]
  apply List.filterMap_congr
  intro row _
  rw [Function.comp_apply, headSlice, List.getElem?_take_of_lt inside, List.getElem?_drop]

/-- A slice of consecutive heads. -/
theorem head_slice_range (read : Nat → Vec) {rank : Nat} (inside : rank < cpSize) :
    headSlice hLocal rank ((List.range (cpSize * hLocal)).map read) =
      (List.range hLocal).map (fun head => read (rank * hLocal + head)) := by
  have enough : rank * hLocal + hLocal ≤ cpSize * hLocal := by
    rw [← Nat.succ_mul]
    exact Nat.mul_le_mul_right _ inside
  apply List.ext_getElem?
  intro head
  by_cases within : head < hLocal
  · rw [headSlice, List.getElem?_take_of_lt within, List.getElem?_drop, List.getElem?_map,
      List.getElem?_map, List.getElem?_range within, List.getElem?_range (by omega)]
    rfl
  · rw [List.getElem?_eq_none, List.getElem?_eq_none]
    · rw [List.length_map, List.length_range]
      omega
    · rw [headSlice, List.length_take]
      omega

/-- The group of a head within a slice is the slice's part of its group in the whole. -/
theorem group_of_slice (rank : Nat) {qLocal kLocal head : Nat} (divides : kLocal ∣ qLocal)
    (positive : 0 < cpSize) (inside : head < qLocal) :
    head / (qLocal / kLocal) < kLocal ∧
      (rank * qLocal + head) / (cpSize * qLocal / (cpSize * kLocal)) =
        rank * kLocal + head / (qLocal / kLocal) := by
  obtain ⟨size, rfl⟩ := divides
  have keys : 0 < kLocal := Nat.pos_of_mul_pos_right (Nat.zero_lt_of_lt inside)
  have sizePositive : 0 < size := Nat.pos_of_mul_pos_left (Nat.zero_lt_of_lt inside)
  rw [Nat.mul_div_mul_left _ _ positive, Nat.mul_div_cancel_left size keys]
  refine ⟨(Nat.div_lt_iff_lt_mul sizePositive).mpr inside, ?_⟩
  rw [← Nat.mul_assoc, Nat.add_comm, Nat.add_mul_div_right _ _ sizePositive, Nat.add_comm]

/-- Attention over the slices of one rank is that rank's slice of attention over all heads. -/
theorem grouped_rows_slice (attend : List Query → List Key → List Value → Nat → Out)
    {q qRank : HeadTensor Query} {k kRank : HeadTensor Key} {v vRank : HeadTensor Value}
    {qLocal kLocal rank : Nat} (inside : rank < cpSize) (divides : kLocal ∣ qLocal)
    (qHeads : q.heads = cpSize * qLocal) (kHeads : k.heads = cpSize * kLocal)
    (qRankHeads : qRank.heads = qLocal) (kRankHeads : kRank.heads = kLocal)
    (qSlice : qRank.rows = q.rows.map (headSlice qLocal rank))
    (kSlice : kRank.rows = k.rows.map (headSlice kLocal rank))
    (vSlice : vRank.rows = v.rows.map (headSlice kLocal rank)) :
    groupedRows attend qRank kRank vRank =
      (groupedRows attend q k v).map (headSlice qLocal rank) := by
  rw [groupedRows, groupedRows, List.map_map, qSlice, List.length_map, qRankHeads, kRankHeads,
    kSlice, vSlice, qHeads, kHeads]
  apply List.map_congr_left
  intro position _
  rw [Function.comp_apply, head_slice_range _ inside]
  apply List.map_congr_left
  intro head member
  have within := List.mem_range.mp member
  obtain ⟨keyInside, sameGroup⟩ :=
    group_of_slice rank divides (Nat.zero_lt_of_lt inside) within
  rw [column_head_slices _ _ within, column_head_slices _ _ keyInside,
    column_head_slices _ _ keyInside, sameGroup]

variable [DecidableEq Scalar] [Zero Scalar]

/-- Every rank returns its shard of attention on the unsharded tensors. -/
theorem ulysses_shard
    {flashFn : HeadTensor Query → HeadTensor Key → HeadTensor Value → FlashCall Scalar →
      FlashOutput Out} (grouped : ComputesByGroups flashFn) (args : FlashArgs Scalar)
    {qHeads kHeads : Nat} {qs : List (HeadTensor Query)} {ks : List (HeadTensor Key)}
    {vs : List (HeadTensor Value)} (q : Sharded cpSize sLocal qHeads qs)
    (k : Sharded cpSize sLocal kHeads ks) (v : Sharded cpSize sLocal kHeads vs)
    (qDivides : cpSize ∣ qHeads) (kDivides : cpSize ∣ kHeads) (groups : kHeads ∣ qHeads)
    {rank : Nat} (inside : rank < cpSize) :
    ∃ out, ulyssesFlashAttnVarlenFunc flashFn args qs ks vs cpSize rank = .ok out ∧
      out.heads = qHeads ∧
      out.rows = (((flashFn q.gather k.gather v.gather (flashCall args)).out.rows).drop
        (rank * sLocal)).take sLocal := by
  obtain ⟨attend, computes⟩ := grouped
  obtain ⟨qLocal, rfl⟩ := qDivides
  obtain ⟨kLocal, rfl⟩ := kDivides
  have positive : 0 < cpSize := Nat.zero_lt_of_lt inside
  have localGroups : kLocal ∣ qLocal := Nat.dvd_of_mul_dvd_mul_left positive groups
  obtain ⟨fullHeads, fullRows⟩ := computes (flashCall args) q.gather k.gather v.gather rfl groups
    (by rw [q.gather_length, k.gather_length]) (by rw [q.gather_length, v.gather_length])
  have each : ∀ rank < cpSize, ∃ out,
      localAttention flashFn args qs ks vs cpSize rank = .ok out ∧ out.heads = qLocal ∧
        out.rows = ((flashFn q.gather k.gather v.gather (flashCall args)).out.rows).map
          (headSlice qLocal rank) := by
    intro rank inside
    obtain ⟨qRank, qReceived, qRankHeads, qRows⟩ :=
      seq_to_head_ok q (Nat.dvd_mul_right cpSize qLocal) inside
    obtain ⟨kRank, kReceived, kRankHeads, kRows⟩ :=
      seq_to_head_ok k (Nat.dvd_mul_right cpSize kLocal) inside
    obtain ⟨vRank, vReceived, vRankHeads, vRows⟩ :=
      seq_to_head_ok v (Nat.dvd_mul_right cpSize kLocal) inside
    rw [Nat.mul_div_cancel_left _ positive] at qRankHeads qRows kRankHeads kRows vRankHeads vRows
    obtain ⟨outHeads, outRows⟩ := computes (flashCall args) qRank kRank vRank
      (by rw [kRankHeads, vRankHeads]) (by rw [kRankHeads, qRankHeads]; exact localGroups)
      (by rw [qRows, kRows, List.length_map, List.length_map, q.gather_length, k.gather_length])
      (by rw [qRows, vRows, List.length_map, List.length_map, q.gather_length, v.gather_length])
    refine ⟨(flashFn qRank kRank vRank (flashCall args)).out, ?_, outHeads.trans qRankHeads, ?_⟩
    · rw [localAttention, qReceived, kReceived, vReceived]
    · rw [outRows, fullRows]
      exact grouped_rows_slice (attend (flashCall args)) inside localGroups rfl rfl qRankHeads
        kRankHeads qRows kRows vRows
  obtain ⟨outs, collected, ranks, slices⟩ := collect_range each
  have total : (flashFn q.gather k.gather v.gather (flashCall args)).out.rows.length =
      cpSize * sLocal := by
    rw [fullRows, groupedRows, List.length_map, List.length_range, q.gather_length]
  have spread : Sharded cpSize (cpSize * sLocal) qLocal outs := by
    refine ⟨ranks, ?_, ?_⟩
    · intro t member
      obtain ⟨index, listed⟩ := List.mem_iff_getElem?.mp member
      exact (slices index t listed).2.1
    · intro t member
      obtain ⟨index, listed⟩ := List.mem_iff_getElem?.mp member
      rw [(slices index t listed).2.2, List.length_map, total]
  have even : Rectangular (cpSize * qLocal)
      (flashFn q.gather k.gather v.gather (flashCall args)).out.rows := by
    intro row member
    exact ((flashFn q.gather k.gather v.gather (flashCall args)).out.even row member).trans fullHeads
  obtain ⟨out, received, outHeads, outRows⟩ := head_to_seq_slices spread _ even total
    (fun index t listed => (slices index t listed).2.2) inside
  refine ⟨out, ?_, outHeads.trans (Nat.mul_comm _ _), outRows⟩
  rw [ulyssesFlashAttnVarlenFunc, collected]
  exact received

/-- Exchanging heads and sequence is invertible, and attention between the exchanges is attention
on the unsharded tensors. -/
theorem ulysses_eq_unsharded (cpSize sLocal : Nat) (positive : 0 < cpSize) :
    (∀ (heads : Nat) (group : List (HeadTensor Vec))
      (sharded : Sharded cpSize sLocal heads group), cpSize ∣ heads →
      (∀ rank < cpSize, ∃ out, allToAllSeqToHead group cpSize rank = .ok out ∧
        out.heads = heads / cpSize ∧
        out.rows = sharded.gather.rows.map (headSlice (heads / cpSize) rank)) ∧
      ∃ exchanged, collect (allToAllSeqToHead group cpSize) (List.range cpSize) = .ok exchanged ∧
        collect (allToAllHeadToSeq exchanged cpSize) (List.range cpSize) = .ok group) ∧
    (∀ (hLocal : Nat) (group : List (HeadTensor Vec)),
      Sharded cpSize (cpSize * sLocal) hLocal group →
      ∃ exchanged, collect (allToAllHeadToSeq group cpSize) (List.range cpSize) = .ok exchanged ∧
        collect (allToAllSeqToHead exchanged cpSize) (List.range cpSize) = .ok group) ∧
    ∀ (flashFn : HeadTensor Query → HeadTensor Key → HeadTensor Value → FlashCall Scalar →
        FlashOutput Out), ComputesByGroups flashFn →
      ∀ (args : FlashArgs Scalar) (qHeads kHeads : Nat) (qs : List (HeadTensor Query))
        (ks : List (HeadTensor Key)) (vs : List (HeadTensor Value))
        (q : Sharded cpSize sLocal qHeads qs) (k : Sharded cpSize sLocal kHeads ks)
        (v : Sharded cpSize sLocal kHeads vs),
        cpSize ∣ qHeads → cpSize ∣ kHeads → kHeads ∣ qHeads → ∀ rank < cpSize,
        ∃ out, ulyssesFlashAttnVarlenFunc flashFn args qs ks vs cpSize rank = .ok out ∧
          out.heads = qHeads ∧
          out.rows = (((flashFn q.gather k.gather v.gather (flashCall args)).out.rows).drop
            (rank * sLocal)).take sLocal := by
  refine ⟨?_, ?_, ?_⟩
  · intro heads group sharded divides
    exact ⟨fun rank inside => seq_to_head_ok sharded divides inside,
      heads_there_and_back sharded divides⟩
  · intro hLocal group spread
    exact positions_there_and_back spread positive
  · intro flashFn grouped args qHeads kHeads qs ks vs q k v qDivides kDivides groups rank inside
    exact ulysses_shard grouped args q k v qDivides kDivides groups inside

/-- A kernel made of one function of a query head and the key and value head of its group. -/
def kernelOf (attend : FlashCall Scalar → List Query → List Key → List Value → Nat → Out)
    (q : HeadTensor Query) (k : HeadTensor Key) (v : HeadTensor Value) (call : FlashCall Scalar) :
    FlashOutput Out :=
  .tensor
    { heads := q.heads
      rows := groupedRows (attend call) q k v
      even := by
        intro row member
        obtain ⟨position, -, rfl⟩ := List.mem_map.mp member
        rw [List.length_map, List.length_range] }

omit [DecidableEq Scalar] [Zero Scalar] in
theorem kernel_of_computes
    (attend : FlashCall Scalar → List Query → List Key → List Value → Nat → Out) :
    ComputesByGroups (kernelOf attend) :=
  ⟨attend, fun _ _ _ _ _ _ _ _ => ⟨rfl, rfl⟩⟩

/-- Two positions, whose entries count on by ten from one to the next and by one from
head to head. -/
def twoPositions (heads first : Nat) : HeadTensor Nat :=
  ⟨heads, [first, first + 10].map (fun start => (List.range heads).map (start + ·)),
    by simp [Rectangular]⟩

theorem two_positions_sharded (heads first second : Nat) :
    Sharded 2 2 heads [twoPositions heads first, twoPositions heads second] :=
  ⟨rfl, by simp [twoPositions], by simp [twoPositions]⟩

/-- Two ranks with two positions each and four query heads over two key heads: the second
rank's causal attention, where a position adds to its query the keys and values up to it. -/
theorem ulysses_two_ranks :
    ∃ out, ulyssesFlashAttnVarlenFunc
        (kernelOf (fun _ qs ks vs position => qs.getD position 0 +
          (ks.take (position + 1)).sum + (vs.take (position + 1)).sum))
        (⟨[0, 4], [0, 4], 4, 4, true, 2, (-1, -1), none, (0 : Int), none⟩ : FlashArgs Int)
        [twoPositions 4 0, twoPositions 4 20] [twoPositions 2 100, twoPositions 2 120]
        [twoPositions 2 1000, twoPositions 2 1020] 2 1 = .ok out ∧ out.heads = 4 ∧
      out.rows = [[3380, 3381, 3388, 3389], [4550, 4551, 4560, 4561]] := by
  obtain ⟨out, returned, heads, rows⟩ :=
    (@ulysses_eq_unsharded Nat Nat Nat Nat Nat Int _ _ 2 2 (by decide)).2.2
      (kernelOf (fun _ qs ks vs position => qs.getD position 0 +
        (ks.take (position + 1)).sum + (vs.take (position + 1)).sum))
      (kernel_of_computes _) ⟨[0, 4], [0, 4], 4, 4, true, 2, (-1, -1), none, 0, none⟩ 4 2
      _ _ _ (two_positions_sharded 4 0 20) (two_positions_sharded 2 100 120)
      (two_positions_sharded 2 1000 1020) (by decide) (by decide) (by decide) 1 (by decide)
  exact ⟨out, returned, heads, rows.trans (by decide)⟩

end PrimeRl.Models.Ulysses
