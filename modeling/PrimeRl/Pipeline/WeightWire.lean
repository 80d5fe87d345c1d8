import PrimeRl.Support.Buckets
import PrimeRl.Support.Codec
import PrimeRl.Support.Decimal
import PrimeRl.Support.OrderedDict
import PrimeRl.Support.Tensor

/-!
# Weights on the wire

The trainer cuts its state dict into the weights outside the layers and those of each
layer, and sends piece by piece. A piece goes as its metadata and one run of elements
for each dtype. A receiver posts a buffer for every message, so both sides must agree
on kind, dtype and size of each one.
-/

namespace PrimeRl.WeightWire

variable {Dtype Value : Type} [DecidableEq Dtype]

abbrev Key := List Char

structure Weight (Dtype Value : Type) where
  dtype : Dtype
  tensor : Tensor Value
deriving DecidableEq

/-- A state dict as its items, in insertion order. -/
abbrev StateDict (Dtype Value : Type) := List (Key × Weight Dtype Value)

/-- For each dtype the keys, shapes and sizes of its tensors. -/
abbrev Metadata (Dtype : Type) := List (Dtype × List (Key × List Nat × Nat))

/-- Pickled metadata are read back as they were. -/
structure Pickle (Dtype : Type) where
  dumps : Metadata Dtype → List UInt8
  loads : List UInt8 → Option (Metadata Dtype)
  loads_dumps : ∀ metadata, loads (dumps metadata) = some metadata

/-- Metadata in bytes, for any writing of the dtypes. -/
def Pickle.ofCodec (dtype : Codec Dtype) : Pickle Dtype :=
  let info := Codec.letter.list.pair (Codec.natural.list.pair Codec.natural)
  let metadata := (dtype.pair info.list).list
  ⟨metadata.write, metadata.readAll, metadata.read_all⟩

/-- One broadcast of the sender. -/
inductive Message (Dtype Value : Type) where
  | integer (integer : Nat)
  | bytes (state : List UInt8)
  | elements (dtype : Dtype) (concatenated : List Value)

/-! ## Sending -/

def dtypeGroups (stateDict : StateDict Dtype Value) : OrderedDict Dtype (StateDict Dtype Value) :=
  stateDict.foldl
    (fun groups item =>
      groups.set item.2.dtype ((groups.get? item.2.dtype).getD [] ++ [item])) .empty

def describe (item : Key × Weight Dtype Value) : Key × List Nat × Nat :=
  (item.1, item.2.tensor.shape, item.2.tensor.data.length)

def broadcastStateDict (pickle : Pickle Dtype) (stateDict : StateDict Dtype Value) :
    List (Message Dtype Value) :=
  let groups := (dtypeGroups stateDict).entries
  let state := pickle.dumps (groups.map fun group => (group.1, group.2.map describe))
  .integer state.length :: .bytes state ::
    groups.map fun group => .elements group.1 (group.2.flatMap (fun item => item.2.tensor.data))

/-- The text of a layer index. -/
def layerLabel (layer : Nat) : Key := Nat.toDigits 10 layer

/-- One more than the greatest layer index that follows the prefix. The digits are those of
    ASCII, of which a label is made; an index in other digits is of no label. -/
def getMaxLayerNum (stateDict : StateDict Dtype Value) (layerPrefix : Key) : Nat :=
  stateDict.foldl
    (fun maxNum item =>
      if layerPrefix.isPrefixOf item.1 then
        let layerNumStr := (item.1.drop layerPrefix.length).takeWhile (· ≠ '.')
        if layerNumStr ≠ [] ∧ layerNumStr.all Char.isDigit then
          max maxNum (Nat.ofDigitChars 10 layerNumStr 0 + 1)
        else maxNum
      else maxNum) 0

/-- The weights outside the layers, as piece -1, and then those of each layer. -/
def filterStateDictByLayers (stateDict : StateDict Dtype Value) (numLayers : Nat)
    (layerPrefix : Key) : List (Int × StateDict Dtype Value) :=
  (-1, stateDict.filter (fun item => !layerPrefix.isPrefixOf item.1)) ::
    (List.range numLayers).map fun (layer : Nat) =>
      (Int.ofNat layer, stateDict.filter (fun item =>
        (layerPrefix ++ layerLabel layer ++ ['.']).isPrefixOf item.1))

/-- The whole broadcast. What is done to a piece before it is sent is a parameter. -/
def broadcastWeights (pickle : Pickle Dtype)
    (preprocess : Int → StateDict Dtype Value → StateDict Dtype Value)
    (stateDict : StateDict Dtype Value) (layerPrefix : Key) : List (Message Dtype Value) :=
  let numLayers := getMaxLayerNum stateDict layerPrefix
  .integer (numLayers + 1) ::
    (filterStateDictByLayers stateDict numLayers layerPrefix).flatMap
      (fun piece => broadcastStateDict pickle (preprocess piece.1 piece.2))

/-! ## Receiving -/

def receiveInteger : List (Message Dtype Value) → Option (Nat × List (Message Dtype Value))
  | .integer integer :: rest => some (integer, rest)
  | _ => none

def receiveBytes (size : Nat) :
    List (Message Dtype Value) → Option (List UInt8 × List (Message Dtype Value))
  | .bytes state :: rest => if state.length = size then some (state, rest) else none
  | _ => none

def receiveElements (dtype : Dtype) (totalElements : Nat) :
    List (Message Dtype Value) → Option (List Value × List (Message Dtype Value))
  | .elements sent concatenated :: rest =>
      if sent = dtype ∧ concatenated.length = totalElements then some (concatenated, rest) else none
  | _ => none

/-- Cut received elements into tensors, each viewed in its shape. -/
def splitElements (dtype : Dtype) :
    List (Key × List Nat × Nat) → List Value → Option (StateDict Dtype Value)
  | [], _ => some []
  | (key, shape, numel) :: infos, concatenated =>
      if sized : (concatenated.take numel).length = shape.prod then
        (splitElements dtype infos (concatenated.drop numel)).map
          (fun items => (key, ⟨dtype, ⟨shape, concatenated.take numel, sized⟩⟩) :: items)
      else none

def receiveGroups : Metadata Dtype → List (Message Dtype Value) →
    Option (StateDict Dtype Value × List (Message Dtype Value))
  | [], messages => some ([], messages)
  | (dtype, infos) :: groups, messages => do
      let (concatenated, messages) ←
        receiveElements dtype (infos.map (fun info => info.2.2)).sum messages
      let items ← splitElements dtype infos concatenated
      let (others, messages) ← receiveGroups groups messages
      some (items ++ others, messages)

def receiveStateDict (pickle : Pickle Dtype) (messages : List (Message Dtype Value)) :
    Option (StateDict Dtype Value × List (Message Dtype Value)) := do
  let (size, messages) ← receiveInteger messages
  let (state, messages) ← receiveBytes size messages
  let metadata ← pickle.loads state
  receiveGroups metadata messages

def receivePieces (pickle : Pickle Dtype) : Nat → List (Message Dtype Value) →
    Option (StateDict Dtype Value × List (Message Dtype Value))
  | 0, messages => some ([], messages)
  | pieces + 1, messages => do
      let (items, messages) ← receiveStateDict pickle messages
      let (others, messages) ← receivePieces pickle pieces messages
      some (items ++ others, messages)

/-- What the receiver hands to the model, and what is left on the wire. -/
def receiveWeights (pickle : Pickle Dtype) (messages : List (Message Dtype Value)) :
    Option (StateDict Dtype Value × List (Message Dtype Value)) := do
  let (pieces, messages) ← receiveInteger messages
  receivePieces pickle pieces messages

/-! ## What arrives -/

/-- Every group has tensors of its dtype only, and the groups have all tensors. -/
theorem groups_all (stateDict : StateDict Dtype Value) :
    ((dtypeGroups stateDict).entries.flatMap Prod.snd).Perm stateDict ∧
      ∀ group ∈ (dtypeGroups stateDict).entries, ∀ item ∈ group.2, item.2.dtype = group.1 := by
  induction stateDict using List.reverseRecOn with
  | nil => exact ⟨List.Perm.refl _, by simp [dtypeGroups, OrderedDict.empty]⟩
  | append_singleton before item inductionHypothesis =>
    obtain ⟨all, own⟩ := inductionHypothesis
    have step : dtypeGroups (before ++ [item]) = (dtypeGroups before).set item.2.dtype
        (((dtypeGroups before).get? item.2.dtype).getD [] ++ [item]) := by
      simp [dtypeGroups]
    rw [step]
    refine ⟨(OrderedDict.append_perm _ _ _).trans (all.append_right [item]), ?_⟩
    rintro ⟨dtype, items⟩ listed other member
    rcases (OrderedDict.mem_set _ _ _ _ _).mp listed with ⟨rfl, rfl⟩ | ⟨_, earlier⟩
    · rcases List.mem_append.mp member with older | new
      · cases found : (dtypeGroups before).get? item.2.dtype with
        | none => simp [found] at older
        | some group =>
          rw [found, Option.getD_some] at older
          exact own _ ((OrderedDict.get?_eq_some_iff _ _ _).mp found) other older
      · rw [List.mem_singleton.mp new]
    · exact own _ earlier other member

omit [DecidableEq Dtype] in
theorem split_sent (dtype : Dtype) (items : StateDict Dtype Value) (rest : List Value)
    (own : ∀ item ∈ items, item.2.dtype = dtype) :
    splitElements dtype (items.map describe)
      (items.flatMap (fun item => item.2.tensor.data) ++ rest) = some items := by
  induction items with
  | nil => rfl
  | cons item items inductionHypothesis =>
    obtain ⟨here, others⟩ := List.forall_mem_cons.mp own
    obtain ⟨key, ⟨kind, ⟨shape, data, sized⟩⟩⟩ := item
    obtain rfl : kind = dtype := here
    have taken : (data ++ (items.flatMap (fun item => item.2.tensor.data) ++ rest)).take data.length =
        data := List.take_left
    simp only [List.map_cons, describe, List.flatMap_cons, List.append_assoc, splitElements]
    rw [dif_pos (by rw [taken, sized]), List.drop_left, inductionHypothesis others, Option.map_some]
    simp only [taken]

theorem receive_groups_sent (groups : List (Dtype × StateDict Dtype Value))
    (own : ∀ group ∈ groups, ∀ item ∈ group.2, item.2.dtype = group.1)
    (rest : List (Message Dtype Value)) :
    receiveGroups (groups.map fun group => (group.1, group.2.map describe))
        (groups.map (fun group => Message.elements group.1
          (group.2.flatMap (fun item => item.2.tensor.data))) ++ rest) =
      some (groups.flatMap Prod.snd, rest) := by
  induction groups with
  | nil => rfl
  | cons group groups inductionHypothesis =>
    obtain ⟨here, others⟩ := List.forall_mem_cons.mp own
    have total : ((group.2.map describe).map (fun info => info.2.2)).sum =
        (group.2.flatMap (fun item => item.2.tensor.data)).length := by
      rw [List.length_flatMap, List.map_map]
      rfl
    have split := split_sent group.1 group.2 [] here
    rw [List.append_nil] at split
    simp only [List.map_cons, List.cons_append, receiveGroups, receiveElements, total, and_self,
      if_true, Option.bind_eq_bind, Option.bind_some, split, inductionHypothesis others,
      List.flatMap_cons]

theorem receive_sent (pickle : Pickle Dtype) (stateDict : StateDict Dtype Value)
    (rest : List (Message Dtype Value)) :
    receiveStateDict pickle (broadcastStateDict pickle stateDict ++ rest) =
      some ((dtypeGroups stateDict).entries.flatMap Prod.snd, rest) := by
  have received := receive_groups_sent (dtypeGroups stateDict).entries (groups_all stateDict).2 rest
  simp only [receiveStateDict, broadcastStateDict, List.cons_append, receiveInteger, receiveBytes,
    if_true, Option.bind_eq_bind, Option.bind_some, pickle.loads_dumps, received]

theorem receive_pieces_sent (pickle : Pickle Dtype)
    (preprocess : Int → StateDict Dtype Value → StateDict Dtype Value)
    (pieces : List (Int × StateDict Dtype Value)) :
    receivePieces pickle pieces.length
        (pieces.flatMap (fun piece => broadcastStateDict pickle (preprocess piece.1 piece.2))) =
      some (pieces.flatMap
        (fun piece => (dtypeGroups (preprocess piece.1 piece.2)).entries.flatMap Prod.snd), []) := by
  induction pieces with
  | nil => rfl
  | cons piece pieces inductionHypothesis =>
    simp only [List.length_cons, receivePieces, List.flatMap_cons, receive_sent,
      Option.bind_eq_bind, Option.bind_some, inductionHypothesis]

theorem grouped_perm (preprocess : Int → StateDict Dtype Value → StateDict Dtype Value)
    (pieces : List (Int × StateDict Dtype Value)) :
    (pieces.flatMap (fun piece =>
        (dtypeGroups (preprocess piece.1 piece.2)).entries.flatMap Prod.snd)).Perm
      (pieces.flatMap (fun piece => preprocess piece.1 piece.2)) := by
  induction pieces with
  | nil => exact List.Perm.refl _
  | cons piece pieces inductionHypothesis =>
    exact (groups_all (preprocess piece.1 piece.2)).1.append inductionHypothesis

/-! ## Layers -/

/-- A key of a layer's weight: the prefix, the plain index of the layer and a dot. -/
def Layered (layerPrefix key : Key) : Prop :=
  ∃ layer rest, key = layerPrefix ++ layerLabel layer ++ '.' :: rest

/-- The weights of a layer have its label in front of the first dot. -/
theorem label_before_dot (layerPrefix key : Key) (layer : Nat) :
    (layerPrefix ++ layerLabel layer ++ ['.']).isPrefixOf key ↔
      ∃ rest, key = layerPrefix ++ layerLabel layer ++ '.' :: rest := by
  rw [List.isPrefixOf_iff_prefix]
  constructor
  · rintro ⟨rest, rfl⟩
    exact ⟨rest, by simp⟩
  · rintro ⟨rest, rfl⟩
    exact ⟨rest, by simp⟩

theorem label_digits (layer : Nat) (letter : Char) (member : letter ∈ layerLabel layer) :
    letter.isDigit :=
  Nat.isDigit_of_mem_toDigits (by decide) (by decide) member

theorem label_taken (layer : Nat) (rest : Key) :
    (layerLabel layer ++ '.' :: rest).takeWhile (· ≠ '.') = layerLabel layer := by
  rw [List.takeWhile_append_of_pos]
  · simp
  · intro letter member
    have digit := label_digits layer letter member
    by_cases dot : letter = '.'
    · rw [dot] at digit
      exact absurd digit (by decide)
    · simp [dot]

/-- The number shown by a label is the layer. -/
theorem label_number (layer : Nat) : Nat.ofDigitChars 10 (layerLabel layer) 0 = layer :=
  Nat.ofDigitChars_ten_toDigits

/-- One key is a key of one layer at most. -/
theorem layer_unique {layerPrefix rest otherRest : Key} {layer other : Nat}
    (same : layerPrefix ++ layerLabel layer ++ '.' :: rest =
      layerPrefix ++ layerLabel other ++ '.' :: otherRest) : layer = other := by
  rw [List.append_assoc, List.append_assoc, List.append_cancel_left_eq] at same
  have labels := congrArg (fun key => key.takeWhile (· ≠ '.')) same
  simp only [label_taken] at labels
  rw [← label_number layer, labels, label_number]

omit [DecidableEq Dtype] in
/-- The counted layers include that of every listed key. -/
theorem layer_counted (stateDict : StateDict Dtype Value) (layerPrefix rest : Key) (layer : Nat)
    (weight : Weight Dtype Value)
    (listed : (layerPrefix ++ layerLabel layer ++ '.' :: rest, weight) ∈ stateDict) :
    layer < getMaxLayerNum stateDict layerPrefix := by
  induction stateDict using List.reverseRecOn with
  | nil => simp at listed
  | append_singleton before item inductionHypothesis =>
    rw [getMaxLayerNum, List.foldl_append, List.foldl_cons, List.foldl_nil]
    rcases List.mem_append.mp listed with earlier | last
    · have counted := inductionHypothesis earlier
      rw [getMaxLayerNum] at counted
      apply Nat.lt_of_lt_of_le counted
      split
      · dsimp only
        split
        · exact Nat.le_max_left _ _
        · exact Nat.le_refl _
      · exact Nat.le_refl _
    · rw [← List.mem_singleton.mp last]
      have inPrefix : layerPrefix.isPrefixOf (layerPrefix ++ layerLabel layer ++ '.' :: rest) := by
        simp [List.isPrefixOf_iff_prefix]
      have dropped : (layerPrefix ++ layerLabel layer ++ '.' :: rest).drop layerPrefix.length =
          layerLabel layer ++ '.' :: rest := by
        rw [List.append_assoc, List.drop_left]
      have shown : layerLabel layer ≠ [] ∧ (layerLabel layer).all Char.isDigit :=
        ⟨Nat.toDigits_ne_nil, List.all_eq_true.mpr (label_digits layer)⟩
      rw [if_pos inPrefix]
      simp only [dropped, label_taken]
      rw [if_pos shown, label_number]
      omega

/-- The test by which a key is put in the piece of an index. -/
def inPiece (layerPrefix : Key) (piece : Int) (key : Key) : Bool :=
  if piece < 0 then !layerPrefix.isPrefixOf key
  else (layerPrefix ++ layerLabel piece.toNat ++ ['.']).isPrefixOf key

theorem in_outside (layerPrefix key : Key) :
    inPiece layerPrefix (-1) key = !layerPrefix.isPrefixOf key := by
  simp [inPiece]

theorem inPiece_layer (layerPrefix key : Key) (layer : Nat) :
    inPiece layerPrefix (Int.ofNat layer) key =
      (layerPrefix ++ layerLabel layer ++ ['.']).isPrefixOf key :=
  if_neg (Int.not_lt.mpr (Int.natCast_nonneg layer))

theorem in_layer (layerPrefix key : Key) (layer : Nat) :
    inPiece layerPrefix (Int.ofNat layer) key ↔
      ∃ rest, key = layerPrefix ++ layerLabel layer ++ '.' :: rest := by
  rw [inPiece_layer, label_before_dot]

omit [DecidableEq Dtype] in
theorem pieces_sifted (stateDict : StateDict Dtype Value) (numLayers : Nat) (layerPrefix : Key) :
    (filterStateDictByLayers stateDict numLayers layerPrefix).flatMap Prod.snd =
      (-1 :: (List.range numLayers).map Int.ofNat).flatMap
        (fun piece => stateDict.filter (fun item => inPiece layerPrefix piece item.1)) := by
  simp only [filterStateDictByLayers, List.flatMap_cons, List.flatMap_map, in_outside,
    inPiece_layer]

/-- A layer's key has the prefix, so it is not outside, and it shows one layer only. -/
theorem in_one_piece (layerPrefix key : Key) (numLayers : Nat) :
    (-1 :: (List.range numLayers).map Int.ofNat).countP (inPiece layerPrefix · key) ≤ 1 := by
  rw [List.countP_cons, List.countP_map, in_outside]
  rcases Nat.eq_zero_or_pos ((List.range numLayers).countP
    ((inPiece layerPrefix · key) ∘ Int.ofNat)) with none | some
  · rw [none]
    split <;> omega
  · obtain ⟨layer, _, placed⟩ := List.countP_pos_iff.mp some
    obtain ⟨rest, isKey⟩ := (in_layer layerPrefix key layer).mp placed
    have below : layerPrefix.isPrefixOf key := by
      simp [isKey, List.isPrefixOf_iff_prefix]
    have once : (List.range numLayers).countP ((inPiece layerPrefix · key) ∘ Int.ofNat) ≤
        (List.range numLayers).count layer := by
      apply List.countP_mono_left
      intro other _ otherPlaced
      obtain ⟨otherRest, isOther⟩ := (in_layer layerPrefix key other).mp otherPlaced
      exact beq_iff_eq.mpr (layer_unique (isOther.symm.trans isKey))
    have single := List.nodup_iff_count_le_one.mp (List.nodup_range (n := numLayers)) layer
    rw [if_neg (by simp [below])]
    omega

/-- What the receiver gets, and which weights of the trainer are in the pieces: all but
    those under the prefix that no plain layer index follows. -/
theorem weights_arrive (pickle : Pickle Dtype)
    (preprocess : Int → StateDict Dtype Value → StateDict Dtype Value)
    (stateDict : StateDict Dtype Value) (layerPrefix : Key) :
    ∃ pieces received lost,
      pieces = filterStateDictByLayers stateDict (getMaxLayerNum stateDict layerPrefix) layerPrefix ∧
      receiveWeights pickle (broadcastWeights pickle preprocess stateDict layerPrefix) =
        some (received, []) ∧
      received.Perm (pieces.flatMap (fun piece => preprocess piece.1 piece.2)) ∧
      (pieces.flatMap Prod.snd ++ lost).Perm stateDict ∧
      ∀ item ∈ stateDict, item ∈ lost ↔ layerPrefix <+: item.1 ∧ ¬ Layered layerPrefix item.1 := by
  let numLayers := getMaxLayerNum stateDict layerPrefix
  let tests := -1 :: (List.range numLayers).map Int.ofNat
  refine ⟨_, _, stateDict.filter (fun item => !tests.any (inPiece layerPrefix · item.1)), rfl, ?_,
    grouped_perm preprocess _, ?_, ?_⟩
  · have count : (filterStateDictByLayers stateDict numLayers layerPrefix).length = numLayers + 1 := by
      simp [filterStateDictByLayers]
    have received := receive_pieces_sent pickle preprocess
      (filterStateDictByLayers stateDict numLayers layerPrefix)
    rw [count] at received
    simp only [receiveWeights, broadcastWeights, receiveInteger, Option.bind_eq_bind,
      Option.bind_some]
    exact received
  · rw [pieces_sifted]
    exact Buckets.sift_perm (fun test item => inPiece layerPrefix test item.1) tests stateDict
      (fun item _ => in_one_piece layerPrefix item.1 numLayers)
  · intro item listed
    rw [List.mem_filter, and_iff_right listed, Bool.not_eq_true', List.any_eq_false,
      List.forall_mem_cons, in_outside, Bool.not_eq_true', Bool.not_eq_false,
      List.isPrefixOf_iff_prefix]
    apply and_congr_right
    intro _
    constructor
    · rintro unplaced ⟨layer, rest, isKey⟩
      obtain ⟨key, weight⟩ := item
      obtain rfl : key = _ := isKey
      have counted := layer_counted stateDict layerPrefix rest layer weight listed
      exact unplaced layer (List.mem_map_of_mem (List.mem_range.mpr counted))
        ((in_layer layerPrefix _ layer).mpr ⟨rest, rfl⟩)
    · intro unlayered piece member placed
      obtain ⟨layer, _, rfl⟩ := List.mem_map.mp member
      exact unlayered ⟨layer, (in_layer layerPrefix item.1 layer).mp placed⟩

/-- Two dtypes of a checkpoint. -/
inductive TorchDtype where
  | bfloat16
  | float32
deriving DecidableEq

def TorchDtype.codec : Codec TorchDtype :=
  Codec.natural.standing
    (fun dtype => match dtype with
      | .bfloat16 => 0
      | .float32 => 1)
    (fun number => match number with
      | 0 => some .bfloat16
      | 1 => some .float32
      | _ => none)
    (fun dtype => by cases dtype with
      | bfloat16 => rfl
      | float32 => rfl)

/-- An embedding, two layers with weights of two dtypes, and a key whose layer index is not
    plain, which is counted as a layer but is in no piece. -/
theorem weights_arrive_two_layers :
    let weight (dtype : TorchDtype) (data : List Int) : Weight TorchDtype Int :=
      ⟨dtype, ⟨[data.length], data, by simp⟩⟩
    let layerPrefix := "model.layers.".toList
    let embedding := ("model.embed.weight".toList, weight .bfloat16 [1, 2, 3])
    let norm := ("model.layers.0.norm.weight".toList, weight .float32 [4])
    let first := ("model.layers.0.mlp.weight".toList, weight .bfloat16 [5, 6])
    let second := ("model.layers.1.mlp.weight".toList, weight .bfloat16 [7, 8])
    let stray := ("model.layers.01.mlp.weight".toList, weight .bfloat16 [9])
    let stateDict := [second, embedding, norm, stray, first]
    let pickle := Pickle.ofCodec TorchDtype.codec
    ∃ received, receiveWeights pickle
        (broadcastWeights pickle (fun _ piece => piece) stateDict layerPrefix) =
          some (received, []) ∧
      received.Perm [embedding, norm, first, second] := by
  intro weight layerPrefix embedding norm first second stray stateDict pickle
  obtain ⟨pieces, received, lost, isPieces, arrived, all, -⟩ :=
    weights_arrive pickle (fun _ piece => piece) stateDict layerPrefix
  have sent : pieces.flatMap (fun piece => piece.2) = [embedding, norm, first, second] := by
    rw [isPieces]
    decide +kernel
  rw [sent] at all
  exact ⟨received, arrived, all⟩

end PrimeRl.WeightWire
