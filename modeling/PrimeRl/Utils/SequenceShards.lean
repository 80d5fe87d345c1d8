import Mathlib.Algebra.Ring.Int.Defs
import Mathlib.Algebra.Ring.Nat
import Mathlib.Data.List.Range
import PrimeRl.Utils.Cp
import PrimeRl.Utils.Sequence

/-!
# Boundaries of packed sequences and of their shards

The position ids of a packed row count up from zero in every sequence. A window of the
row starts somewhere inside a sequence and cuts each sequence it meets to what the two
have in common, so the zeros that are left in the window are the starts of its other
pieces. The arithmetic of the packing lengths gives the same pieces.
-/

namespace PrimeRl.Utils.Sequence

open Cp (shardForCp)

/-- The position ids of a row of packed sequences. -/
def packedPositionIds (lengths : List Nat) : List Nat := lengths.flatMap List.range

theorem packed_length (lengths : List Nat) : (packedPositionIds lengths).length = lengths.sum := by
  simp [packedPositionIds, List.length_flatMap]

/-! ## Starts -/

theorem zero_starts_append (left right : List Nat) (index : Nat) :
    zeroStarts index (left ++ right) =
      zeroStarts index left ++ zeroStarts (index + left.length) right := by
  induction left generalizing index with
  | nil => rfl
  | cons positionId rest inductionHypothesis =>
    simp only [List.cons_append, zeroStarts, inductionHypothesis, List.length_cons,
      Nat.add_assoc, Nat.add_comm 1]
    split
    · rfl
    · rfl

/-- Position ids that continue a sequence hold no zero. -/
theorem zero_starts_continued (index skip count : Nat) :
    zeroStarts index (List.range' (skip + 1) count) = [] := by
  induction count generalizing index skip with
  | zero => rfl
  | succ count inductionHypothesis =>
    simp only [List.range'_succ, zeroStarts, Nat.succ_ne_zero, if_false]
    exact inductionHypothesis _ _

/-- A sequence is zero at its start and nowhere else. -/
theorem zero_starts_range (index : Nat) {count : Nat} (positive : 0 < count) :
    zeroStarts index (List.range count) = [index] := by
  obtain ⟨count, rfl⟩ := Nat.exists_eq_add_of_le' positive
  simp only [List.range_eq_range', List.range'_succ, zeroStarts, if_true]
  exact congrArg _ (zero_starts_continued _ 0 count)

/-- The zeros of packed sequences are their starts, which the running sums list before the
total. -/
theorem zero_starts_packed (index : Nat) (lengths : List Nat)
    (positive : ∀ length ∈ lengths, 0 < length) :
    zeroStarts index (packedPositionIds lengths) ++ [index + lengths.sum] =
      lengths.scanl (· + ·) index := by
  induction lengths generalizing index with
  | nil => rfl
  | cons length rest inductionHypothesis =>
    have later := inductionHypothesis (index + length)
      (fun other member => positive other (List.mem_cons_of_mem _ member))
    have first := zero_starts_range index (positive length List.mem_cons_self)
    simp only [packedPositionIds, List.flatMap_cons, zero_starts_append, first, List.length_range,
      List.sum_cons, List.scanl_cons, ← Nat.add_assoc, List.cons_append, List.nil_append]
    exact congrArg _ later

theorem scanl_increasing (index : Nat) (lengths : List Nat)
    (positive : ∀ length ∈ lengths, 0 < length) :
    (lengths.scanl (· + ·) index).IsChain (· < ·) := by
  induction lengths generalizing index with
  | nil => exact List.isChain_singleton _
  | cons length rest inductionHypothesis =>
    have later := inductionHypothesis (index + length)
      (fun other member => positive other (List.mem_cons_of_mem _ member))
    have first := positive length List.mem_cons_self
    cases rest with
    | nil => simpa using first
    | cons next rest =>
      simp only [List.scanl_cons, List.isChain_cons_cons] at later ⊢
      exact ⟨Nat.lt_add_of_pos_right first, later⟩

/-- Neighbouring running sums differ by the lengths. -/
theorem scanl_differences (index : Nat) (lengths : List Nat) :
    List.zipWith (· - ·) (lengths.scanl (· + ·) index).tail
      (lengths.scanl (· + ·) index) = lengths := by
  induction lengths generalizing index with
  | nil => rfl
  | cons length rest inductionHypothesis =>
    have later := inductionHypothesis (index + length)
    cases rest with
    | nil => simp
    | cons next rest =>
      simp only [List.scanl_cons, List.tail_cons, List.zipWith_cons_cons,
        Nat.add_sub_cancel_left] at later ⊢
      exact congrArg _ later

theorem zip_with_longer {α β γ : Type} (combine : α → β → γ) (left : List α) (right extra : List β)
    (short : left.length ≤ right.length) :
    List.zipWith combine left (right ++ extra) = List.zipWith combine left right := by
  induction left generalizing right with
  | nil => rfl
  | cons value rest inductionHypothesis =>
    cases right with
    | nil => simp at short
    | cons other right =>
      simp only [List.cons_append, List.zipWith_cons_cons]
      exact congrArg _ (inductionHypothesis right (Nat.le_of_succ_le_succ short))

/-- No running sum exceeds the total. -/
theorem scanl_le_total (index : Nat) (lengths : List Nat) :
    ∀ offset ∈ lengths.scanl (· + ·) index, offset ≤ index + lengths.sum := by
  induction lengths generalizing index with
  | nil => simp
  | cons length rest inductionHypothesis =>
    intro offset member
    simp only [List.scanl_cons, List.mem_cons, List.sum_cons] at member ⊢
    rcases member with rfl | later
    · exact Nat.le_add_right _ _
    · have bound := inductionHypothesis (index + length) offset later
      omega

theorem int32_of_le {value : Nat} (fits : value ≤ int32Max) : int32 value = value := by
  rw [int32Max] at fits
  apply Int.bmod_eq_of_le
  · omega
  · omega

/-- The tensor and the metadata describe the same boundaries. -/
def PackedSequenceMetadata.Describes (metadata : PackedSequenceMetadata)
    (positionIds : List Nat) : Prop :=
  getCuSeqlensFromPositionIds positionIds =
    .ok (metadata.offsets.map Int.ofNat, metadata.maxSeqlen)

/-- Position ids that continue one sequence and then pack others have the boundaries of
those pieces. -/
theorem cu_seqlens_of_pieces (skip first : Nat) (rest : List Nat) (firstPositive : 0 < first)
    (positive : ∀ length ∈ rest, 0 < length) (fits : (first :: rest).sum ≤ int32Max) :
    getCuSeqlensFromPositionIds (List.range' skip first ++ packedPositionIds rest) =
      .ok ((accumulate (first :: rest)).map Int.ofNat, (first :: rest).foldl max 0) := by
  have total : (List.range' skip first ++ packedPositionIds rest).length = first + rest.sum := by
    rw [List.length_append, List.length_range', packed_length]
  have boundaries := zero_starts_packed first rest positive
  -- The start at zero is kept once, whether or not the first position id is zero.
  have starts : (0 :: zeroStarts 0 (List.range' skip first ++ packedPositionIds rest)).destutter
      (· ≠ ·) = 0 :: zeroStarts first (packedPositionIds rest) := by
    have increasing := scanl_increasing 0 (first :: rest)
      (List.forall_mem_cons.mpr ⟨firstPositive, positive⟩)
    rw [List.scanl_cons, Nat.zero_add, ← boundaries, ← List.cons_append] at increasing
    have chain : (0 :: zeroStarts first (packedPositionIds rest)).IsChain (· ≠ ·) :=
      (List.isChain_append.mp increasing).1.imp (fun _ _ => Nat.ne_of_lt)
    have front : zeroStarts 0 (List.range' skip first ++ packedPositionIds rest) =
        (if skip = 0 then [0] else []) ++ zeroStarts first (packedPositionIds rest) := by
      rw [zero_starts_append, List.length_range', Nat.zero_add]
      cases skip with
      | zero =>
        rw [← List.range_eq_range', zero_starts_range 0 firstPositive]
        rfl
      | succ skip =>
        rw [zero_starts_continued]
        rfl
    rw [front]
    split
    · rw [List.singleton_append, List.destutter_cons_cons, if_neg (fun differ => differ rfl),
        ← List.destutter_cons']
      exact List.destutter_of_isChain _ _ chain
    · exact List.destutter_of_isChain _ _ chain
  have seqlens : List.zipWith (· - ·)
      (zeroStarts first (packedPositionIds rest) ++ [first + rest.sum])
      (0 :: zeroStarts first (packedPositionIds rest)) = first :: rest := by
    have differences := scanl_differences 0 (first :: rest)
    rw [List.scanl_cons, Nat.zero_add, List.tail_cons, ← boundaries, ← List.cons_append] at differences
    have short : (zeroStarts first (packedPositionIds rest) ++ [first + rest.sum]).length ≤
        (0 :: zeroStarts first (packedPositionIds rest)).length := by
      simp
    exact (zip_with_longer _ _ _ _ short).symm.trans differences
  have nonempty : ¬ (List.range' skip first ++ packedPositionIds rest).length = 0 := by omega
  have sums : (accumulate (first :: rest)).map Int.ofNat =
      0 :: (accumulate (first :: rest)).tail.map int32 := by
    rw [accumulate, List.scanl_cons, List.map_cons, List.tail_cons]
    apply congrArg (0 :: ·)
    apply List.map_congr_left
    intro offset member
    have bound := scanl_le_total _ _ offset member
    rw [List.sum_cons] at fits
    exact (int32_of_le (by omega)).symm
  dsimp only [getCuSeqlensFromPositionIds]
  rw [if_neg nonempty, starts, List.tail_cons, total, seqlens, sums]

/-! ## Windows -/

/-- What a window of a row has in common with each sequence, where the first sequence
starts at a given place. -/
def pieceLengths (start stop left : Nat) : List Nat → List Nat
  | [] => []
  | length :: rest =>
    (min (left + length) stop - max left start) :: pieceLengths start stop (left + length) rest

/-- The offsets of a row give the pieces of a window. -/
theorem offset_pieces (start stop left : Nat) (lengths : List Nat) :
    ((lengths.scanl (· + ·) left).zip (lengths.scanl (· + ·) left).tail).map
      (fun ends => min ends.2 stop - max ends.1 start) = pieceLengths start stop left lengths := by
  induction lengths generalizing left with
  | nil => rfl
  | cons length rest inductionHypothesis =>
    have later := inductionHypothesis (left + length)
    simp only [List.scanl_cons, List.tail_cons, pieceLengths] at later ⊢
    cases rest with
    | nil => rfl
    | cons next rest =>
      simp only [List.scanl_cons, List.zip_cons_cons, List.map_cons, List.tail_cons] at later ⊢
      exact congrArg _ later

theorem piece_lengths_append (start stop left : Nat) (before after : List Nat) :
    pieceLengths start stop left (before ++ after) =
      pieceLengths start stop left before ++ pieceLengths start stop (left + before.sum) after := by
  induction before generalizing left with
  | nil => rfl
  | cons length rest inductionHypothesis =>
    simp only [List.cons_append, pieceLengths, inductionHypothesis, List.sum_cons, Nat.add_assoc]

/-- The pieces of a window cover what the window and the row have in common. -/
theorem piece_lengths_sum (start stop left : Nat) (lengths : List Nat) :
    (pieceLengths start stop left lengths).sum =
      min (left + lengths.sum) stop - max left start := by
  induction lengths generalizing left with
  | nil => simp only [pieceLengths, List.sum_nil]; omega
  | cons length rest inductionHypothesis =>
    simp only [pieceLengths, List.sum_cons, inductionHypothesis]
    omega

theorem sum_positive (lengths : List Nat) : (lengths.filter (0 < ·)).sum = lengths.sum := by
  induction lengths with
  | nil => rfl
  | cons length rest inductionHypothesis =>
    by_cases positive : 0 < length
    · simp [positive, inductionHypothesis]
    · simp [inductionHypothesis, Nat.eq_zero_of_not_pos positive]

/-- A window that starts before the row cuts whole sequences and the start of one. -/
theorem window_of_starts (start stop left : Nat) (lengths : List Nat) (before : start ≤ left) :
    (packedPositionIds lengths).take (stop - left) =
      packedPositionIds ((pieceLengths start stop left lengths).filter (0 < ·)) := by
  induction lengths generalizing left with
  | nil => simp [packedPositionIds, pieceLengths]
  | cons length rest inductionHypothesis =>
    have later := inductionHypothesis (left + length) (Nat.le_add_right_of_le before)
    have piece : min (left + length) stop - max left start = min length (stop - left) := by omega
    have remaining : stop - left - length = stop - (left + length) := by omega
    simp only [packedPositionIds, List.flatMap_cons, List.take_append, List.length_range,
      List.take_range, pieceLengths, piece, remaining] at later ⊢
    rw [later]
    by_cases positive : 0 < min length (stop - left)
    · rw [List.filter_cons_of_pos (by simpa using positive), List.flatMap_cons, Nat.min_comm]
    · rw [List.filter_cons_of_neg (by simpa using positive), Nat.min_comm,
        Nat.eq_zero_of_not_pos positive]
      rfl

theorem take_range_prime (start count size : Nat) :
    (List.range' start count).take size = List.range' start (min size count) := by
  rcases Nat.le_total count size with short | long
  · rw [List.take_range'_of_length_le short, Nat.min_eq_right short]
  · rw [List.take_range'_of_length_ge long, Nat.min_eq_left long]

/-- A window cuts the end of one sequence, then whole ones and the start of a last one. -/
theorem window_of_row (start stop left : Nat) (lengths : List Nat) (proper : start < stop)
    (inside : left ≤ start) (within : start < left + lengths.sum) :
    ∃ skip first rest,
      (pieceLengths start stop left lengths).filter (0 < ·) = first :: rest ∧
        ((packedPositionIds lengths).drop (start - left)).take (stop - start) =
          List.range' skip first ++ packedPositionIds rest := by
  induction lengths generalizing left with
  | nil =>
    rw [List.sum_nil] at within
    omega
  | cons length rest inductionHypothesis =>
    have front : (List.range length).drop (start - left) =
        List.range' (start - left) (length - (start - left)) := by
      rw [List.range_eq_range', List.drop_range', Nat.zero_add, Nat.mul_one]
    simp only [packedPositionIds, List.flatMap_cons, List.drop_append, List.length_range, front,
      pieceLengths] at inductionHypothesis ⊢
    by_cases later : left + length ≤ start
    · -- The window starts after this sequence.
      rw [List.sum_cons, ← Nat.add_assoc] at within
      obtain ⟨skip, first, others, pieces, window⟩ := inductionHypothesis (left + length) later within
      have empty : min (left + length) stop - max left start = 0 := by omega
      have gone : length - (start - left) = 0 := by omega
      have remaining : start - left - length = start - (left + length) := by omega
      refine ⟨skip, first, others, ?_, ?_⟩
      · rw [empty]
        exact pieces
      · rw [gone, remaining]
        exact window
    · have started : start - left - length = 0 := by omega
      have piece : min (left + length) stop - max left start =
          min (stop - start) (length - (start - left)) := by omega
      have positive : 0 < min (left + length) stop - max left start := by omega
      have remaining : stop - start - (length - (start - left)) = stop - (left + length) := by omega
      have whole := window_of_starts start stop (left + length) rest (by omega)
      refine ⟨start - left, _, (pieceLengths start stop (left + length) rest).filter (0 < ·),
        List.filter_cons_of_pos (by simpa using positive), ?_⟩
      rw [started, List.drop_zero, List.take_append, take_range_prime, List.length_range',
        remaining, piece]
      exact congrArg _ whole

/-- A window over the whole row cuts nothing. -/
theorem piece_lengths_whole (start stop left : Nat) (lengths : List Nat) (before : start ≤ left)
    (after : left + lengths.sum ≤ stop) : pieceLengths start stop left lengths = lengths := by
  induction lengths generalizing left with
  | nil => rfl
  | cons length rest inductionHypothesis =>
    rw [List.sum_cons] at after
    have later := inductionHypothesis (left + length) (by omega) (by omega)
    have piece : min (left + length) stop - max left start = length := by omega
    simp only [pieceLengths, piece, later]

/-- The running sums are the sums of the initial parts. -/
theorem mem_accumulate (lengths : List Nat) (offset : Nat) :
    offset ∈ accumulate lengths ↔
      ∃ before after, lengths = before ++ after ∧ offset = before.sum := by
  have from_index : ∀ index, offset ∈ lengths.scanl (· + ·) index ↔
      ∃ before after, lengths = before ++ after ∧ offset = index + before.sum := by
    induction lengths with
    | nil =>
      intro index
      simp
    | cons length rest inductionHypothesis =>
      intro index
      simp only [List.scanl_cons, List.mem_cons, inductionHypothesis, List.cons_eq_append_iff]
      constructor
      · rintro (rfl | ⟨before, after, rfl, rfl⟩)
        · exact ⟨[], _, Or.inl ⟨rfl, rfl⟩, rfl⟩
        · exact ⟨length :: before, after, Or.inr ⟨before, rfl, rfl⟩, by
            rw [List.sum_cons, Nat.add_assoc]⟩
      · rintro ⟨before, after, ⟨rfl, rfl⟩ | ⟨others, rfl, rfl⟩, rfl⟩
        · exact Or.inl rfl
        · exact Or.inr ⟨others, after, rfl, by rw [List.sum_cons, Nat.add_assoc]⟩
  simpa [accumulate] using from_index 0

/-! ## Shards -/

/-- What the shard of a rank keeps of each sequence. -/
def shardLengths (lengths : List Nat) (chunk cpRank : Nat) : List Nat :=
  (pieceLengths (cpRank * chunk) ((cpRank + 1) * chunk) 0 lengths).filter (0 < ·)

theorem shard_lengths_sum (lengths : List Nat) {chunk cpRank : Nat}
    (inside : (cpRank + 1) * chunk ≤ lengths.sum) : (shardLengths lengths chunk cpRank).sum = chunk := by
  rw [shardLengths, sum_positive, piece_lengths_sum, Nat.zero_add, Nat.min_eq_right inside,
    Nat.succ_mul]
  omega

/-- The shards of the first ranks have the first tokens. -/
theorem shards_sum (lengths : List Nat) {chunk ranks : Nat} (inside : ranks * chunk ≤ lengths.sum) :
    ((List.range ranks).flatMap (shardLengths lengths chunk)).sum = ranks * chunk := by
  induction ranks with
  | zero => simp
  | succ ranks inductionHypothesis =>
    have earlier : ranks * chunk ≤ lengths.sum := by
      rw [Nat.succ_mul] at inside
      omega
    simp only [List.range_succ, List.flatMap_append, List.sum_append, inductionHypothesis earlier,
      List.flatMap_singleton, shard_lengths_sum lengths inside, Nat.succ_mul]

/-- Every boundary of the row is one of the shards laid end to end. -/
theorem shards_refine (lengths : List Nat) {chunk cpWorldSize : Nat} (positive : 0 < chunk)
    (total : lengths.sum = cpWorldSize * chunk) :
    accumulate lengths ⊆ accumulate ((List.range cpWorldSize).flatMap (shardLengths lengths chunk)) := by
  intro offset member
  obtain ⟨before, after, rfl, rfl⟩ := (mem_accumulate lengths offset).mp member
  apply (mem_accumulate _ _).mpr
  have below : before.sum ≤ cpWorldSize * chunk := by
    rw [← total, List.sum_append]
    exact Nat.le_add_right _ _
  rcases Nat.eq_or_lt_of_le below with atEnd | proper
  · exact ⟨_, [], (List.append_nil _).symm, by rw [shards_sum _ total.ge, atEnd]⟩
  · -- The boundary is inside the window of one rank, after the pieces of the sequences before it.
    have rank : before.sum / chunk < cpWorldSize := (Nat.div_lt_iff_lt_mul positive).mpr proper
    have low : before.sum / chunk * chunk ≤ before.sum := Nat.div_mul_le_self _ _
    have high : before.sum < (before.sum / chunk + 1) * chunk := by
      rw [Nat.succ_mul]
      exact Nat.lt_div_mul_add positive
    generalize before.sum / chunk = cpRank at rank low high
    obtain ⟨others, rfl⟩ := Nat.exists_eq_add_of_lt rank
    have ranks : (List.range (cpRank + others + 1)).flatMap (shardLengths (before ++ after) chunk) =
        ((List.range cpRank).flatMap (shardLengths (before ++ after) chunk) ++
          (pieceLengths (cpRank * chunk) ((cpRank + 1) * chunk) 0 before).filter (0 < ·)) ++
          ((pieceLengths (cpRank * chunk) ((cpRank + 1) * chunk) before.sum after).filter (0 < ·) ++
            (List.range' (cpRank + 1) others).flatMap (shardLengths (before ++ after) chunk)) := by
      have split : List.range (cpRank + others + 1) =
          List.range cpRank ++ cpRank :: List.range' (cpRank + 1) others := by
        rw [Nat.add_assoc, List.range_eq_range', ← List.range'_append_1, List.range'_succ,
          Nat.zero_add, List.range_eq_range']
      have cut : shardLengths (before ++ after) chunk cpRank =
          (pieceLengths (cpRank * chunk) ((cpRank + 1) * chunk) 0 before).filter (0 < ·) ++
            (pieceLengths (cpRank * chunk) ((cpRank + 1) * chunk) before.sum after).filter
              (0 < ·) := by
        rw [shardLengths, piece_lengths_append, List.filter_append, Nat.zero_add]
      simp only [split, List.flatMap_append, List.flatMap_cons, cut, List.append_assoc]
    refine ⟨_, _, ranks, ?_⟩
    have earlier : cpRank * chunk ≤ (before ++ after).sum :=
      total.symm ▸ Nat.mul_le_mul_right _ (by omega)
    rw [List.sum_append, shards_sum _ earlier, sum_positive, piece_lengths_sum]
    omega

/-- A row of at least one sequence has tokens. -/
theorem sum_pos_of_positive {lengths : List Nat} (nonempty : lengths ≠ [])
    (positive : ∀ length ∈ lengths, 0 < length) : 0 < lengths.sum := by
  cases lengths with
  | nil => exact absurd rfl nonempty
  | cons first rest =>
    rw [List.sum_cons]
    exact Nat.add_pos_left (positive first List.mem_cons_self) _

section
variable {lengths : List Nat} {cpWorldSize : Nat} (nonempty : lengths ≠ [])
  (positive : ∀ length ∈ lengths, 0 < length) (divides : cpWorldSize ∣ lengths.sum)
include nonempty positive divides

theorem chunk_pos : 0 < lengths.sum / cpWorldSize :=
  have total := sum_pos_of_positive nonempty positive
  Nat.div_pos (Nat.le_of_dvd total divides) (Nat.pos_of_dvd_of_pos divides total)

omit nonempty positive in
theorem chunk_inside {cpRank : Nat} (rank : cpRank < cpWorldSize) :
    (cpRank + 1) * (lengths.sum / cpWorldSize) ≤ lengths.sum := by
  calc (cpRank + 1) * (lengths.sum / cpWorldSize) ≤ cpWorldSize * (lengths.sum / cpWorldSize) :=
        Nat.mul_le_mul_right _ rank
    _ = lengths.sum := Nat.mul_div_cancel' divides

/-- The metadata of a shard is that of the pieces of its window. -/
theorem for_cp_of_dvd {cpRank : Nat} (fits : lengths.sum ≤ int32Max) (rank : cpRank < cpWorldSize) :
    (PackedSequenceMetadata.ofLengths lengths).forCp cpRank cpWorldSize =
      .ok (.ofLengths (shardLengths lengths (lengths.sum / cpWorldSize) cpRank)) := by
  have chunk := chunk_pos nonempty positive divides
  have inside := chunk_inside divides rank
  have sum := shard_lengths_sum lengths inside
  have pieces : shardLengths lengths (lengths.sum / cpWorldSize) cpRank ≠ [] := by
    intro empty
    rw [empty, List.sum_nil] at sum
    omega
  have prepared := prepare_positive _ pieces (fun length member => by
    simpa using List.of_mem_filter member)
  have small : ¬ int32Max < lengths.sum / cpWorldSize :=
    Nat.not_lt.mpr ((Nat.div_le_self _ _).trans fits)
  rw [sum, if_neg small] at prepared
  simp only [PackedSequenceMetadata.forCp, total_tokens_of_lengths]
  rw [if_neg (by omega), if_neg (not_not_intro rank), if_neg (not_not_intro (Nat.mod_eq_zero_of_dvd divides))]
  split
  · -- A single rank keeps the metadata as it is.
    rename_i single
    subst single
    obtain rfl := Nat.lt_one_iff.mp rank
    rw [Nat.div_one, shardLengths, piece_lengths_whole _ _ _ _ (by omega) (by omega),
      List.filter_eq_self.mpr (fun length member => by simpa using positive length member)]
  · exact (congrArg (fun pieces => preparePackedSequenceMetadata (pieces.filter (0 < ·)) _)
      (offset_pieces _ _ 0 lengths)).trans prepared

/-- The tensor of a shard has the boundaries of the pieces of its window. -/
theorem shard_describes {cpRank : Nat} (fits : lengths.sum ≤ int32Max) (rank : cpRank < cpWorldSize) :
    ∃ ids, shardForCp (packedPositionIds lengths) cpRank cpWorldSize = some ids ∧
      (PackedSequenceMetadata.ofLengths
        (shardLengths lengths (lengths.sum / cpWorldSize) cpRank)).Describes ids := by
  have chunk := chunk_pos nonempty positive divides
  have inside := chunk_inside divides rank
  have sum := shard_lengths_sum lengths inside
  have small : lengths.sum / cpWorldSize ≤ int32Max := (Nat.div_le_self _ _).trans fits
  have total := packed_length lengths
  have filled : 0 < (packedPositionIds lengths).length :=
    total.symm ▸ sum_pos_of_positive nonempty positive
  have shard := Cp.shard_for_cp_of_dvd filled (total.symm ▸ divides) rank
  rw [total] at shard
  refine ⟨_, shard, ?_⟩
  generalize lengths.sum / cpWorldSize = size at *
  obtain ⟨skip, first, rest, pieces, window⟩ :=
    window_of_row (cpRank * size) ((cpRank + 1) * size) 0 lengths
      (Nat.mul_lt_mul_of_pos_right (Nat.lt_succ_self _) chunk) (Nat.zero_le _) (by
        rw [Nat.succ_mul] at inside
        omega)
  have width : (cpRank + 1) * size - cpRank * size = size := by
    rw [Nat.succ_mul, Nat.add_sub_cancel_left]
  rw [width, Nat.sub_zero] at window
  have isShard : shardLengths lengths size cpRank = first :: rest := pieces
  have each : ∀ length ∈ first :: rest, 0 < length := by
    rw [← isShard]
    intro length member
    simpa using List.of_mem_filter member
  rw [window, isShard]
  rw [isShard] at sum
  exact cu_seqlens_of_pieces skip first rest (each first List.mem_cons_self)
    (fun length member => each length (List.mem_cons_of_mem _ member)) (sum.trans_le small)

end

/-- Shards that agree with the position ids of a row: every rank has its own, and laid end
to end they refine the row. -/
structure ShardsAgree (lengths : List Nat) (metadata : PackedSequenceMetadata)
    (cpWorldSize : Nat) (shards : List PackedSequenceMetadata) : Prop where
  count : shards.length = cpWorldSize
  each : ∀ cpRank shard, shards[cpRank]? = some shard →
    metadata.forCp cpRank cpWorldSize = .ok shard ∧
      ∃ ids, shardForCp (packedPositionIds lengths) cpRank cpWorldSize = some ids ∧
        shard.Describes ids
  total : (shards.flatMap (·.lengths)).sum = lengths.sum
  refines : metadata.offsets ⊆ accumulate (shards.flatMap (·.lengths))

theorem metadata_agrees {lengths : List Nat} (nonempty : lengths ≠ [])
    (positive : ∀ length ∈ lengths, 0 < length) (fits : lengths.sum ≤ int32Max)
    {cpWorldSize : Nat} (divides : cpWorldSize ∣ lengths.sum) :
    ∃ metadata shards, preparePackedSequenceMetadata lengths lengths.sum = .ok metadata ∧
      metadata.Describes (packedPositionIds lengths) ∧
        ShardsAgree lengths metadata cpWorldSize shards := by
  have prepared := prepare_positive lengths nonempty positive
  rw [if_neg (Nat.not_lt.mpr fits)] at prepared
  have total : lengths.sum = cpWorldSize * (lengths.sum / cpWorldSize) :=
    (Nat.mul_div_cancel' divides).symm
  have laid : ((List.range cpWorldSize).map (fun cpRank => PackedSequenceMetadata.ofLengths
      (shardLengths lengths (lengths.sum / cpWorldSize) cpRank))).flatMap (·.lengths) =
        (List.range cpWorldSize).flatMap (shardLengths lengths (lengths.sum / cpWorldSize)) :=
    List.flatMap_map _ _ _
  refine ⟨_, (List.range cpWorldSize).map (fun cpRank => PackedSequenceMetadata.ofLengths
    (shardLengths lengths (lengths.sum / cpWorldSize) cpRank)), prepared, ?_, ?_, ?_, ?_, ?_⟩
  · cases lengths with
    | nil => exact absurd rfl nonempty
    | cons first rest =>
      have described := cu_seqlens_of_pieces 0 first rest (positive first List.mem_cons_self)
        (fun length member => positive length (List.mem_cons_of_mem _ member)) fits
      rwa [← List.range_eq_range'] at described
  · rw [List.length_map, List.length_range]
  · intro cpRank shard isShard
    rw [List.getElem?_map, Option.map_eq_some_iff] at isShard
    obtain ⟨_, isRank, rfl⟩ := isShard
    obtain ⟨rank, rfl⟩ := List.getElem?_eq_some_iff.mp isRank
    rw [List.getElem_range]
    rw [List.length_range] at rank
    exact ⟨for_cp_of_dvd nonempty positive divides fits rank,
      shard_describes nonempty positive divides fits rank⟩
  · rw [laid, shards_sum lengths total.ge]
    exact total.symm
  · rw [laid]
    exact shards_refine lengths (chunk_pos nonempty positive divides) total

/-- Within the offset capacity the metadata of a packed row agrees with its position ids,
and so does that of every shard. A longer row is refused. -/
theorem packed_metadata_agrees (lengths : List Nat) (nonempty : lengths ≠ [])
    (positive : ∀ length ∈ lengths, 0 < length) :
    (lengths.sum ≤ int32Max → ∀ cpWorldSize, cpWorldSize ∣ lengths.sum →
      ∃ metadata shards, preparePackedSequenceMetadata lengths lengths.sum = .ok metadata ∧
        metadata.Describes (packedPositionIds lengths) ∧
          ShardsAgree lengths metadata cpWorldSize shards) ∧
      (int32Max < lengths.sum → preparePackedSequenceMetadata lengths lengths.sum =
        .error "Packed token count exceeds int32 cumulative-offset capacity") :=
  ⟨fun fits _ divides => metadata_agrees nonempty positive fits divides,
    (prepare_accepts lengths nonempty positive).2⟩

/-- A sequence that spans three shards, one that ends at a shard's edge, and one of a
single token. A row of the least length beyond the capacity is refused. -/
theorem packed_metadata_agrees_three_shards :
    (∃ metadata shards, preparePackedSequenceMetadata [6, 2, 1] 9 = .ok metadata ∧
      metadata.Describes (packedPositionIds [6, 2, 1]) ∧ ShardsAgree [6, 2, 1] metadata 3 shards) ∧
      preparePackedSequenceMetadata [2147483647, 1] 2147483648 =
        .error "Packed token count exceeds int32 cumulative-offset capacity" :=
  ⟨(packed_metadata_agrees [6, 2, 1] (by decide) (by decide)).1 (by decide) 3 (by decide),
    (packed_metadata_agrees [2147483647, 1] (by decide) (by decide)).2 (by decide)⟩

/-- A row beyond the offset capacity has no metadata. -/
theorem packed_metadata_refuses_long_rows :
    ¬ ∀ lengths : List Nat, lengths ≠ [] → (∀ length ∈ lengths, 0 < length) →
      ∃ metadata, preparePackedSequenceMetadata lengths lengths.sum = .ok metadata ∧
        metadata.Describes (packedPositionIds lengths) := by
  intro all
  obtain ⟨metadata, prepared, -⟩ := all [2147483648] (by decide) (by decide)
  rw [prepare_positive [2147483648] (by decide) (by decide), if_pos (by decide)] at prepared
  cases prepared

end PrimeRl.Utils.Sequence
