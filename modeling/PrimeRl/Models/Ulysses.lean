import PrimeRl.Support.Exchange
import PrimeRl.Support.Fallible

/-!
# Attention over exchanged heads

Every rank holds a shard of the sequence with all heads. Before attention the
ranks exchange blocks, so that each of them holds the full sequence of its own
slice of the heads, and afterwards they exchange the blocks back. A rank's step
is described with the tensors of the whole group, of which it sends its own
blocks and receives one block of each.
-/

namespace PrimeRl.Models.Ulysses

open Exchange Fallible

universe u
variable {Vec : Type u}

/-- For each position a vector for each head. -/
structure HeadTensor (Vec : Type u) where
  heads : Nat
  rows : List (List Vec)
  even : Rectangular heads rows

@[ext] theorem HeadTensor.ext {first second : HeadTensor Vec} (heads : first.heads = second.heads)
    (rows : first.rows = second.rows) : first = second := by
  obtain ⟨_, _, _⟩ := first
  obtain ⟨_, _, _⟩ := second
  cases heads
  cases rows
  rfl

/-- The ranks' tensors have one shape, as the collective asks for. -/
def OneShape (cpSize : Nat) (group : List (HeadTensor Vec)) (t : HeadTensor Vec) : Prop :=
  group.length = cpSize ∧
    ∀ other ∈ group, other.heads = t.heads ∧ other.rows.length = t.rows.length

instance (cpSize : Nat) (group : List (HeadTensor Vec)) (t : HeadTensor Vec) :
    Decidable (OneShape cpSize group t) := by
  unfold OneShape
  infer_instance

/-- Block `j` of rank `i` becomes block `i` of rank `j`. -/
def allToAllSingle {Block : Type u} (sent : List (List Block)) (rank : Nat) : List Block :=
  column sent rank

/-! ## From sequence shards to head shards -/

/-- `[S_local, cp_size, H_local, D]` transposed to `[cp_size, S_local, H_local, D]`. -/
def headBlocks (cpSize hLocal : Nat) (rows : List (List Vec)) : List (List (List Vec)) :=
  transpose cpSize (rows.map (cut cpSize hLocal))

def receivedHeads (cpSize hLocal : Nat) (group : List (HeadTensor Vec)) (rank : Nat) :
    List (List Vec) :=
  (allToAllSingle (group.map (fun t => headBlocks cpSize hLocal t.rows)) rank).flatten

theorem received_heads_even {cpSize : Nat} {group : List (HeadTensor Vec)} {t : HeadTensor Vec}
    (divides : t.heads % cpSize = 0) (same : OneShape cpSize group t) (rank : Nat) :
    Rectangular (t.heads / cpSize) (receivedHeads cpSize (t.heads / cpSize) group rank) := by
  intro slice member
  obtain ⟨block, received, inBlock⟩ := List.mem_flatten.mp member
  obtain ⟨blocks, sent, listed⟩ := mem_column.mp received
  obtain ⟨other, inGroup, rfl⟩ := List.mem_map.mp sent
  obtain ⟨index, -, rfl⟩ := List.mem_map.mp (List.mem_of_getElem? listed)
  obtain ⟨pieces, cutRow, isSlice⟩ := mem_column.mp inBlock
  obtain ⟨row, inRows, rfl⟩ := List.mem_map.mp cutRow
  have width : row.length = cpSize * (t.heads / cpSize) := by
    rw [other.even row inRows, (same.2 other inGroup).1,
      Nat.mul_div_cancel' (Nat.dvd_of_mod_eq_zero divides)]
  exact cut_even width slice (List.mem_of_getElem? isSlice)

/-- What a rank of the group holds after exchanging sequence for heads. -/
def allToAllSeqToHead (group : List (HeadTensor Vec)) (cpSize rank : Nat) :
    Except String (HeadTensor Vec) :=
  match group[rank]? with
  | none => .error s!"rank {rank} is not in the group"
  | some t =>
      if divides : t.heads % cpSize = 0 then
        if same : OneShape cpSize group t then
          .ok ⟨t.heads / cpSize, receivedHeads cpSize (t.heads / cpSize) group rank,
            received_heads_even divides same rank⟩
        else .error "all_to_all_single: blocks of different shapes"
      else .error s!"num_heads ({t.heads}) must be divisible by cp_size ({cpSize})"

/-! ## From head shards to sequence shards -/

/-- `[cp_size, S_local, H_local, D]` transposed to `[S_local, cp_size, H_local, D]`, with the
heads of all ranks joined. -/
def receivedPositions (cpSize sLocal : Nat) (group : List (HeadTensor Vec)) (rank : Nat) :
    List (List Vec) :=
  (transpose sLocal
    (allToAllSingle (group.map (fun t => cut cpSize sLocal t.rows)) rank)).map List.flatten

theorem received_blocks_even {cpSize sLocal : Nat} {group : List (HeadTensor Vec)}
    (whole : ∀ t ∈ group, t.rows.length = cpSize * sLocal) (rank : Nat) :
    Rectangular sLocal (allToAllSingle (group.map (fun t => cut cpSize sLocal t.rows)) rank) := by
  intro block received
  obtain ⟨blocks, sent, listed⟩ := mem_column.mp received
  obtain ⟨t, inGroup, rfl⟩ := List.mem_map.mp sent
  exact cut_even (whole t inGroup) block (List.mem_of_getElem? listed)

theorem received_blocks_length {cpSize : Nat} (sLocal : Nat) (group : List (HeadTensor Vec))
    {rank : Nat} (inside : rank < cpSize) :
    (allToAllSingle (group.map (fun t => cut cpSize sLocal t.rows)) rank).length =
      group.length := by
  have even : Rectangular cpSize (group.map (fun t => cut cpSize sLocal t.rows)) := by
    intro blocks sent
    obtain ⟨t, -, rfl⟩ := List.mem_map.mp sent
    exact cut_length cpSize sLocal t.rows
  rw [allToAllSingle, column_length even inside, List.length_map]

theorem received_positions_even {cpSize : Nat} {group : List (HeadTensor Vec)} {t : HeadTensor Vec}
    (divides : t.rows.length % cpSize = 0) (same : OneShape cpSize group t) {rank : Nat}
    (inside : rank < group.length) :
    Rectangular (t.heads * cpSize)
      (receivedPositions cpSize (t.rows.length / cpSize) group rank) := by
  have whole : ∀ other ∈ group, other.rows.length = cpSize * (t.rows.length / cpSize) := by
    intro other inGroup
    rw [(same.2 other inGroup).2, Nat.mul_div_cancel' (Nat.dvd_of_mod_eq_zero divides)]
  have blocks := received_blocks_even whole rank
  have count := received_blocks_length (t.rows.length / cpSize) group (same.1 ▸ inside)
  intro joined member
  obtain ⟨line, listed, rfl⟩ := List.mem_map.mp member
  have lineLength := transpose_even blocks line listed
  have lineEven : Rectangular t.heads line := by
    obtain ⟨place, -, rfl⟩ := List.mem_map.mp listed
    intro row inLine
    obtain ⟨block, received, isRow⟩ := mem_column.mp inLine
    obtain ⟨cuts, sent, isBlock⟩ := mem_column.mp received
    obtain ⟨other, inGroup, rfl⟩ := List.mem_map.mp sent
    rw [← (same.2 other inGroup).1]
    apply other.even
    rw [← cut_flatten (whole other inGroup)]
    exact List.mem_flatten_of_mem (List.mem_of_getElem? isBlock) (List.mem_of_getElem? isRow)
  rw [flatten_length lineEven, lineLength, count, same.1, Nat.mul_comm]

/-- What a rank of the group holds after exchanging heads for sequence. -/
def allToAllHeadToSeq (group : List (HeadTensor Vec)) (cpSize rank : Nat) :
    Except String (HeadTensor Vec) :=
  if inside : rank < group.length then
    let t := group.get ⟨rank, inside⟩
    if divides : t.rows.length % cpSize = 0 then
      if same : OneShape cpSize group t then
        .ok ⟨t.heads * cpSize, receivedPositions cpSize (t.rows.length / cpSize) group rank,
          received_positions_even divides same inside⟩
      else .error "all_to_all_single: blocks of different shapes"
    else .error "s_global must be divisible by cp_size"
  else .error s!"rank {rank} is not in the group"

/-! ## Attention -/

/-- The arguments of the attention function besides the tensors. -/
structure FlashArgs (Scalar : Type) where
  cuSeqlensQ : List Nat
  cuSeqlensK : List Nat
  maxSeqlenQ : Nat
  maxSeqlenK : Nat
  causal : Bool
  flashAttnVersion : Nat
  windowSize : Int × Int
  softmaxScale : Option Scalar
  dropoutP : Scalar
  deterministic : Option Bool

/-- How a kernel is called: positional boundaries, or boundaries by keyword, and the keywords that
are given. -/
structure FlashCall (Scalar : Type) where
  positional : Option (List Nat × List Nat × Nat × Nat)
  cuSeqlens : Option (List Nat × List Nat)
  causal : Bool
  windowSize : Option (Int × Int)
  softmaxScale : Option Scalar
  dropoutP : Option Scalar
  deterministic : Option Bool

/-- The keywords of a call, and the boundaries where this version of the kernel takes them. -/
def flashCall {Scalar : Type} [DecidableEq Scalar] [Zero Scalar] (args : FlashArgs Scalar) :
    FlashCall Scalar :=
  let byKeyword := args.flashAttnVersion = 4
  { positional :=
      if byKeyword then none
      else some (args.cuSeqlensQ, args.cuSeqlensK, args.maxSeqlenQ, args.maxSeqlenK)
    cuSeqlens := if byKeyword then some (args.cuSeqlensQ, args.cuSeqlensK) else none
    causal := args.causal
    windowSize := if args.windowSize ≠ (-1, -1) then some args.windowSize else none
    softmaxScale := args.softmaxScale
    dropoutP := if args.dropoutP ≠ 0 then some args.dropoutP else none
    deterministic := args.deterministic }

/-- A kernel returns a tensor, or a tuple that starts with one. -/
inductive FlashOutput (Vec : Type u) where
  | tensor (out : HeadTensor Vec)
  | tuple (out : HeadTensor Vec) (others : List (HeadTensor Vec))

def FlashOutput.out : FlashOutput Vec → HeadTensor Vec
  | .tensor out => out
  | .tuple out _ => out

variable {Query Key Value Out : Type u} {Scalar : Type} [DecidableEq Scalar] [Zero Scalar]

/-- The kernel's result for the heads of one rank. -/
def localAttention
    (flashFn : HeadTensor Query → HeadTensor Key → HeadTensor Value → FlashCall Scalar →
      FlashOutput Out)
    (args : FlashArgs Scalar) (qs : List (HeadTensor Query)) (ks : List (HeadTensor Key))
    (vs : List (HeadTensor Value)) (cpSize rank : Nat) : Except String (HeadTensor Out) :=
  match allToAllSeqToHead qs cpSize rank, allToAllSeqToHead ks cpSize rank,
    allToAllSeqToHead vs cpSize rank with
  | .ok q, .ok k, .ok v => .ok (flashFn q k v (flashCall args)).out
  | .error message, _, _ => .error message
  | _, .error message, _ => .error message
  | _, _, .error message => .error message

/-- What a rank returns when every rank of the group makes the call. -/
def ulyssesFlashAttnVarlenFunc
    (flashFn : HeadTensor Query → HeadTensor Key → HeadTensor Value → FlashCall Scalar →
      FlashOutput Out)
    (args : FlashArgs Scalar) (qs : List (HeadTensor Query)) (ks : List (HeadTensor Key))
    (vs : List (HeadTensor Value)) (cpSize rank : Nat) : Except String (HeadTensor Out) :=
  match collect (localAttention flashFn args qs ks vs cpSize) (List.range cpSize) with
  | .error message => .error message
  | .ok outs => allToAllHeadToSeq outs cpSize rank

end PrimeRl.Models.Ulysses
