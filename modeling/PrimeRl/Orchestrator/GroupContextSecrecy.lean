import PrimeRl.Orchestrator.GroupContext

/-!
# What a group prompt depends on

The count of shared prompt nodes stops at the first sampled node of any member, so it
sees nothing of the target from there on, and a prompt has the records of the peers
only. The shared prompt is the same for every order of the group, and peers are
sorted, so a prompt goes with its rollout under every order.
-/

namespace PrimeRl.Orchestrator.GroupContext

open Json (Text)

variable {Reward : Type}

/-! ## Nodes in front of a position -/

/-- Two rollouts with the same nodes and finish reasons in front of a position. -/
structure Agrees (position : Nat) (rollout other : Rollout Reward) : Prop where
  nodes : ∀ index < position, rollout.nodes[index]? = other.nodes[index]?
  reasons : ∀ index < position, finishReason rollout index = finishReason other index

theorem Agrees.refl (position : Nat) (rollout : Rollout Reward) :
    Agrees position rollout rollout :=
  ⟨fun _ _ => rfl, fun _ _ => rfl⟩

/-- Nodes up to an index follow each other. -/
def Chained (nodes : List MessageNode) (last : Nat) : Prop :=
  ∀ index ≤ last, ∀ node, nodes[index]? = some node → node.parent = expectedParent index

/-- Up a chain there are earlier nodes only. -/
theorem ancestors_earlier {nodes : List MessageNode} {last : Nat} (chained : Chained nodes last)
    (steps index : Nat) (inside : index ≤ last) : ∀ node ∈ ancestors nodes steps index, node < last := by
  induction steps generalizing index with
  | zero => simp [ancestors]
  | succ steps inductionHypothesis =>
    intro node member
    rw [ancestors] at member
    cases found : nodes[index]? with
    | none => simp [found] at member
    | some here =>
      have isParent := chained index inside here found
      cases index with
      | zero => simp [found, isParent, expectedParent] at member
      | succ index =>
        simp only [found, Option.bind_some, isParent, expectedParent] at member
        rcases List.mem_cons.mp member with rfl | above
        · exact inside
        · exact inductionHypothesis index (Nat.le_of_succ_le inside) node above

theorem ancestors_agree {nodes others : List MessageNode} {last : Nat}
    (same : ∀ index ≤ last, nodes[index]? = others[index]?) (chained : Chained nodes last)
    (steps index : Nat) (inside : index ≤ last) :
    ancestors nodes steps index = ancestors others steps index := by
  induction steps generalizing index with
  | zero => rfl
  | succ steps inductionHypothesis =>
    rw [ancestors, ancestors, ← same index inside]
    cases found : nodes[index]? with
    | none => rfl
    | some here =>
      have isParent := chained index inside here found
      cases index with
      | zero => simp [isParent, expectedParent]
      | succ index =>
        simp only [Option.bind_some, isParent, expectedParent]
        rw [inductionHypothesis index (Nat.le_of_succ_le inside)]

/-- A record of a chained node depends on the nodes up to it. -/
theorem node_record_agree {nodes others : List MessageNode} {last : Nat}
    (same : ∀ index ≤ last, nodes[index]? = others[index]?) (chained : Chained nodes last)
    (reason : Option Text) : nodeRecord nodes last reason = nodeRecord others last reason := by
  have calls (toolCallId : Text) :
      toolCallReference nodes last toolCallId = toolCallReference others last toolCallId := by
    have found : (ancestors nodes last last).flatMap (matchingCalls nodes toolCallId) =
        (ancestors others last last).flatMap (matchingCalls others toolCallId) := by
      rw [← ancestors_agree same chained last last (Nat.le_refl last)]
      apply List.flatMap_congr
      intro node member
      have earlier := ancestors_earlier chained last last (Nat.le_refl last) node member
      rw [matchingCalls, matchingCalls, same node (Nat.le_of_lt earlier)]
    rw [toolCallReference, toolCallReference, found]
  rw [nodeRecord, nodeRecord, ← same last (Nat.le_refl last)]
  cases nodes[last]? with
  | none => rfl
  | some node =>
    have message : messageRecord nodes last node.message = messageRecord others last node.message := by
      cases node.message with
      | plain role content => rfl
      | assistant content reasoningContent toolCalls => rfl
      | tool content name toolCallId => rw [messageRecord, messageRecord, calls]
    simp only [message]

/-! ## The shared prompt -/

theorem leaves_agree {position index : Nat} {rollouts others : List (Rollout Reward)}
    (agree : List.Forall₂ (Agrees position) rollouts others) (inside : index < position) :
    leavesPrompt rollouts index = leavesPrompt others index := by
  induction agree with
  | nil => rfl
  | cons same _ inductionHypothesis =>
    rw [leavesPrompt, leavesPrompt] at inductionHypothesis ⊢
    rw [List.any_cons, List.any_cons, inductionHypothesis, same.nodes index inside]

/-- While no member left the prompt, the nodes of each follow each other. -/
theorem chained_of_prompt {rollouts : List (Rollout Reward)} {last : Nat}
    (stays : ∀ index ≤ last, leavesPrompt rollouts index = false) :
    ∀ rollout ∈ rollouts, Chained rollout.nodes last := by
  intro rollout member index inside node found
  have here := List.any_eq_false.mp (stays index inside) rollout member
  simp only [found, Bool.or_eq_true, not_or, Bool.not_eq_true, bne_eq_false_iff_eq] at here
  exact here.2

theorem shared_records_agree {position index : Nat} {rollouts others : List (Rollout Reward)}
    (agree : List.Forall₂ (Agrees position) rollouts others) (inside : index < position)
    (chained : ∀ rollout ∈ rollouts, Chained rollout.nodes index) :
    sharedRecords rollouts index = sharedRecords others index := by
  induction agree with
  | nil => rfl
  | cons same _ inductionHypothesis =>
    obtain ⟨here, later⟩ := List.forall_mem_cons.mp chained
    have record := node_record_agree
      (fun earlier before => same.nodes earlier (Nat.lt_of_le_of_lt before inside)) here
    have tail := inductionHypothesis later
    rw [sharedRecords, sharedRecords] at tail ⊢
    rw [Fallible.collect, Fallible.collect, record, same.reasons index inside, tail]

/-- A sampled node ends the count. -/
theorem count_stops {rollouts : List (Rollout Reward)} {position : Nat}
    (leaves : leavesPrompt rollouts position = true) (remaining : Nat) :
    countShared rollouts remaining position = .ok position := by
  cases remaining with
  | zero => rfl
  | succ remaining => rw [countShared, if_pos leaves]

/-- The count sees nothing behind a position at which it stops. The induction is on the
    distance to that position. -/
theorem count_agree {position : Nat} {rollouts others : List (Rollout Reward)}
    (agree : List.Forall₂ (Agrees position) rollouts others)
    (leaves : leavesPrompt rollouts position = true)
    (otherLeaves : leavesPrompt others position = true)
    (distance index remaining otherRemaining : Nat) (reach : index + distance = position)
    (same : min distance remaining = min distance otherRemaining)
    (stays : ∀ earlier < index, leavesPrompt rollouts earlier = false) :
    countShared rollouts remaining index = countShared others otherRemaining index := by
  induction distance generalizing index remaining otherRemaining with
  | zero =>
    obtain rfl : index = position := reach
    rw [count_stops leaves, count_stops otherLeaves]
  | succ distance inductionHypothesis =>
    cases remaining with
    | zero =>
      obtain rfl : otherRemaining = 0 := by omega
      rfl
    | succ remaining =>
      obtain ⟨otherRemaining, rfl⟩ : ∃ less, otherRemaining = less + 1 :=
        ⟨otherRemaining - 1, by omega⟩
      have inside : index < position := by omega
      rw [countShared, countShared, ← leaves_agree agree inside]
      by_cases left : leavesPrompt rollouts index = true
      · rw [if_pos left, if_pos left]
      · have staysHere : ∀ earlier < index + 1, leavesPrompt rollouts earlier = false := by
          intro earlier before
          rcases Nat.lt_succ_iff_lt_or_eq.mp before with less | rfl
          · exact stays earlier less
          · exact Bool.not_eq_true _ ▸ left
        have chained : ∀ rollout ∈ rollouts, Chained rollout.nodes index :=
          chained_of_prompt (fun earlier upTo => staysHere earlier (Nat.lt_succ_of_le upTo))
        rw [if_neg left, if_neg left, ← shared_records_agree agree inside chained]
        cases sharedRecords rollouts index with
        | error problem => rfl
        | ok records =>
          dsimp only
          split
          · rfl
          · exact inductionHypothesis (index + 1) remaining otherRemaining (by omega) (by omega)
              staysHere

/-! ## The fewest nodes -/

theorem le_fewest_iff {rollouts : List (Rollout Reward)} (nonempty : rollouts ≠ []) (count : Nat) :
    count ≤ fewestNodes rollouts ↔ ∀ rollout ∈ rollouts, count ≤ rollout.nodes.length := by
  cases found : (rollouts.map (fun rollout => rollout.nodes.length)).min? with
  | none => simp [nonempty] at found
  | some fewest =>
    rw [fewestNodes, found, Option.getD_some, List.le_min?_iff found, List.forall_mem_map]

theorem Agrees.length_iff {position count : Nat} {rollout other : Rollout Reward}
    (agrees : Agrees position rollout other) (inside : count ≤ position) :
    count ≤ rollout.nodes.length ↔ count ≤ other.nodes.length := by
  cases count with
  | zero => simp
  | succ count =>
    have same := agrees.nodes count inside
    rw [Nat.succ_le_iff, Nat.succ_le_iff, ← Nat.not_le, ← Nat.not_le, ← List.getElem?_eq_none_iff,
      ← List.getElem?_eq_none_iff, same]

theorem fewest_agree {position : Nat} {rollouts others : List (Rollout Reward)}
    (agree : List.Forall₂ (Agrees position) rollouts others) (nonempty : rollouts ≠ []) :
    min position (fewestNodes rollouts) = min position (fewestNodes others) := by
  have otherNonempty : others ≠ [] := by
    rintro rfl
    exact nonempty (List.forall₂_nil_right_iff.mp agree)
  have same (count : Nat) (inside : count ≤ position) :
      count ≤ fewestNodes rollouts ↔ count ≤ fewestNodes others := by
    rw [le_fewest_iff nonempty, le_fewest_iff otherNonempty]
    clear nonempty otherNonempty
    induction agree with
    | nil => simp
    | cons here _ inductionHypothesis =>
      rw [List.forall_mem_cons, List.forall_mem_cons, here.length_iff inside, inductionHypothesis]
  have left := same (min position (fewestNodes rollouts)) (Nat.min_le_left _ _)
  have right := same (min position (fewestNodes others)) (Nat.min_le_left _ _)
  omega

/-! ## Prompts from peers -/

/-- The canonical text of a peer. -/
def peerText (floats : FloatFormat Reward) (record : PeerRecord Reward) : Text :=
  Json.canonical (peerJson floats record)

/-- The group's JSON from the texts of the peers. -/
def groupText (groupSize : Nat) (peers : List Text) : Text :=
  '{' :: Json.separated ((Json.sortMembers
    [("schema".toList, Json.quote "prime_rl.loo_group_context.v1".toList),
      ("group_size".toList, (Json.integer groupSize).1),
      ("peers".toList, '[' :: Json.separated peers ++ [']'])]).map Json.writeMember) ++ ['}']

theorem group_text (groupSize : Nat) (peers : List Json.Value) :
    Json.canonical (groupJson groupSize peers) = groupText groupSize (peers.map Json.canonical) := by
  simp only [groupJson, groupText, Json.canonical, Json.canonical_members,
    Json.canonical_items, List.map_cons, List.map_nil]

/-- The prompt from the texts of the peers in any order. -/
def promptFrom (specialTokens : List Text) (groupSize : Nat) (texts : List Text) :
    Except ContextError Text :=
  (escapeJsonSpecialTokens (groupText groupSize (texts.insertionSort Json.upTo))
    specialTokens).map (promptText texts.length)

theorem group_prompt_from (floats : FloatFormat Reward) (specialTokens : List Text) (groupSize : Nat)
    (records : List (PeerRecord Reward)) :
    groupPrompt floats specialTokens groupSize records =
      promptFrom specialTokens groupSize (records.map (peerText floats)) := by
  rw [groupPrompt, promptFrom]
  simp only [group_text, List.length_insertionSort, List.length_map]
  rw [List.map_insertionSort _ Json.upTo Json.canonical _ (fun _ _ _ _ => Iff.rfl), List.map_map]
  rfl

/-- Texts in two orders are sorted alike. -/
theorem prompt_from_perm (specialTokens : List Text) (groupSize : Nat) {texts others : List Text}
    (perm : texts.Perm others) :
    promptFrom specialTokens groupSize texts = promptFrom specialTokens groupSize others := by
  have sorted : texts.insertionSort Json.upTo = others.insertionSort Json.upTo := by
    have sameItems := ((List.perm_insertionSort Json.upTo texts).trans perm).trans
      (List.perm_insertionSort Json.upTo others).symm
    exact sameItems.eq_of_pairwise (fun _ _ _ _ below above => Json.upTo_antisymm below above)
      (List.pairwise_insertionSort Json.upTo texts) (List.pairwise_insertionSort Json.upTo others)
  rw [promptFrom, promptFrom, sorted, perm.length_eq]

/-- What a group with prompts went through. -/
theorem prompts_ok_iff (floats : FloatFormat Reward) (specialTokens : List Text)
    (rollouts : List (Rollout Reward)) (prompts : List Text) :
    groupLeaveOneOutPrompts floats specialTokens rollouts = .ok prompts ↔
      2 ≤ rollouts.length ∧ (rollouts.map Rollout.id).Nodup ∧ ∃ omitted records,
        countShared rollouts (fewestNodes rollouts) 0 = .ok omitted ∧
        Fallible.collect (peerRecord floats omitted) rollouts = .ok records ∧
        Fallible.collect (fun current =>
          groupPrompt floats specialTokens rollouts.length (records.eraseIdx current))
          (List.range rollouts.length) = .ok prompts := by
  rw [groupLeaveOneOutPrompts, Fallible.check_passed_iff, Fallible.check_passed_iff, Nat.not_lt,
    not_not]
  refine and_congr_right fun _ => and_congr_right fun _ => ?_
  constructor
  · intro accepted
    obtain ⟨omitted, counted, accepted⟩ := Fallible.bind_ok accepted
    obtain ⟨records, collected, accepted⟩ := Fallible.bind_ok accepted
    exact ⟨omitted, records, counted, collected, accepted⟩
  · rintro ⟨omitted, records, counted, collected, accepted⟩
    simp only [counted, collected, bind, Except.bind, accepted]

/-- The prompt listed for a rollout is the one made for it. -/
theorem prompt_at {step : Nat → Except ContextError Text} {size index : Nat} {prompts : List Text}
    (accepted : Fallible.collect step (List.range size) = .ok prompts) (inside : index < size) :
    ∃ prompt, prompts[index]? = some prompt ∧ step index = .ok prompt := by
  have each := (Fallible.collect_ok_iff _ _ _).mp accepted
  have listed : index < prompts.length := by
    rw [← each.length_eq, List.length_range]
    exact inside
  refine ⟨_, List.getElem?_eq_getElem listed, ?_⟩
  have here := (List.forall₂_iff_get.mp each).2 index (by simpa using inside) listed
  rw [List.get_eq_getElem, List.getElem_range] at here
  exact here

/-! ## The target -/

theorem leaves_at_sampled {rollouts : List (Rollout Reward)} {rollout : Rollout Reward}
    {position : Nat} {node : MessageNode} (member : rollout ∈ rollouts)
    (found : rollout.nodes[position]? = some node) (sampled : node.sampled = true) :
    leavesPrompt rollouts position = true := by
  rw [leavesPrompt, List.any_eq_true]
  exact ⟨rollout, member, by simp [found, sampled]⟩

/-- Records of a group without those of one member. -/
theorem records_around {step : Rollout Reward → Except ContextError (PeerRecord Reward)}
    {before after : List (Rollout Reward)} {target : Rollout Reward}
    {records : List (PeerRecord Reward)}
    (accepted : Fallible.collect step (before ++ target :: after) = .ok records) :
    ∃ front back, Fallible.collect step before = .ok front ∧
      Fallible.collect step after = .ok back ∧ records.eraseIdx before.length = front ++ back := by
  induction before generalizing records with
  | nil =>
    rw [List.nil_append, Fallible.collect] at accepted
    cases first : step target with
    | error problem => simp [first] at accepted
    | ok record =>
      simp only [first] at accepted
      obtain ⟨back, collected, rfl⟩ := Fallible.map_ok accepted
      exact ⟨[], back, rfl, collected, rfl⟩
  | cons rollout before inductionHypothesis =>
    rw [List.cons_append, Fallible.collect] at accepted
    cases first : step rollout with
    | error problem => simp [first] at accepted
    | ok record =>
      simp only [first] at accepted
      obtain ⟨rest, collected, rfl⟩ := Fallible.map_ok accepted
      obtain ⟨front, back, isFront, isBack, joined⟩ := inductionHypothesis collected
      refine ⟨record :: front, back, ?_, isBack, ?_⟩
      · rw [Fallible.collect, first, isFront]
        rfl
      · simp [joined]

/-- The prompt of a rollout is the same whatever its reward, identity, calls and nodes are
    from a sampled node on. -/
theorem prompt_ignores_target (floats : FloatFormat Reward) (specialTokens : List Text)
    (before after : List (Rollout Reward)) (target other : Rollout Reward) (position : Nat)
    (agrees : Agrees position target other) (node otherNode : MessageNode)
    (found : target.nodes[position]? = some node) (sampled : node.sampled = true)
    (otherFound : other.nodes[position]? = some otherNode) (otherSampled : otherNode.sampled = true)
    (prompts otherPrompts : List Text)
    (accepted : groupLeaveOneOutPrompts floats specialTokens (before ++ target :: after) =
      .ok prompts)
    (otherAccepted : groupLeaveOneOutPrompts floats specialTokens (before ++ other :: after) =
      .ok otherPrompts) :
    prompts[before.length]? = otherPrompts[before.length]? := by
  obtain ⟨-, -, omitted, records, counted, collected, prompted⟩ :=
    (prompts_ok_iff _ _ _ _).mp accepted
  obtain ⟨-, -, otherOmitted, otherRecords, otherCounted, otherCollected, otherPrompted⟩ :=
    (prompts_ok_iff _ _ _ _).mp otherAccepted
  have agree : List.Forall₂ (Agrees position) (before ++ target :: after) (before ++ other :: after) := by
    apply List.rel_append
    · exact List.forall₂_same.mpr (fun rollout _ => Agrees.refl position rollout)
    · exact .cons agrees (List.forall₂_same.mpr (fun rollout _ => Agrees.refl position rollout))
  have sameCount := count_agree agree (leaves_at_sampled (by simp) found sampled)
    (leaves_at_sampled (by simp) otherFound otherSampled) position 0 _ _ (Nat.zero_add position)
    (fewest_agree agree (by simp)) (fun earlier below => absurd below (Nat.not_lt_zero earlier))
  rw [counted, otherCounted] at sameCount
  obtain rfl : omitted = otherOmitted := Except.ok.inj sameCount
  obtain ⟨front, back, isFront, isBack, joined⟩ := records_around collected
  obtain ⟨otherFront, otherBack, isOtherFront, isOtherBack, otherJoined⟩ :=
    records_around otherCollected
  obtain rfl : front = otherFront := Except.ok.inj (isFront.symm.trans isOtherFront)
  obtain rfl : back = otherBack := Except.ok.inj (isBack.symm.trans isOtherBack)
  have inside : before.length < (before ++ target :: after).length := by simp
  have otherInside : before.length < (before ++ other :: after).length := by simp
  obtain ⟨prompt, listed, isPrompt⟩ := prompt_at prompted inside
  obtain ⟨otherPrompt, otherListed, isOtherPrompt⟩ := prompt_at otherPrompted otherInside
  have sameLength : (before ++ target :: after).length = (before ++ other :: after).length := by simp
  rw [joined, sameLength] at isPrompt
  rw [otherJoined, isPrompt] at isOtherPrompt
  rw [listed, otherListed, Except.ok.inj isOtherPrompt]

/-! Two attempts at one question, with integer rewards. -/

def wholeRewards : FloatFormat Int := ⟨fun _ => true, fun reward => reward == 0, 0, Json.integer⟩

def questionNode : MessageNode := ⟨none, false, .plain ['u'] (.text ['q'])⟩

def attempt (id : Nat) (reward : Int) (answer : Text) : Rollout Int :=
  ⟨id, ['e'], 0, reward, [questionNode, ⟨some 0, true, .assistant (.text answer) none none⟩], []⟩

set_option maxRecDepth 20000 in
theorem prompt_ignores_target_second : ∃ prompts otherPrompts,
    groupLeaveOneOutPrompts wholeRewards [] ([attempt 0 0 ['<']] ++ attempt 1 1 ['y'] :: []) =
      .ok prompts ∧
    groupLeaveOneOutPrompts wholeRewards [] ([attempt 0 0 ['<']] ++ attempt 2 5 ['z'] :: []) =
      .ok otherPrompts ∧ prompts[1]? = otherPrompts[1]? := by
  have agrees : Agrees 1 (attempt 1 1 ['y']) (attempt 2 5 ['z']) := by
    constructor
    · intro index below
      obtain rfl : index = 0 := by omega
      rfl
    · intro index _
      rfl
  exact ⟨_, _, rfl, rfl, prompt_ignores_target wholeRewards [] [attempt 0 0 ['<']] [] _ _ 1 agrees
    _ _ rfl rfl rfl rfl _ _ rfl rfl⟩

/-! ## The order of the group -/

theorem leaves_perm {rollouts others : List (Rollout Reward)} (perm : rollouts.Perm others)
    (index : Nat) : leavesPrompt rollouts index = leavesPrompt others index := by
  rw [leavesPrompt, leavesPrompt, Bool.eq_iff_iff, List.any_eq_true, List.any_eq_true]
  simp only [perm.mem_iff]

theorem differ_iff (records : List NodeRecord) :
    differ records = false ↔ ∀ record ∈ records, ∀ other ∈ records, record = other := by
  cases records with
  | nil => simp [differ]
  | cons first rest =>
    simp only [differ, List.any_eq_false, bne_iff_ne, ne_eq, not_not]
    constructor
    · intro same record member other otherMember
      have fromFirst (record : NodeRecord) (member : record ∈ first :: rest) : record = first := by
        rcases List.mem_cons.mp member with isFirst | later
        · exact isFirst
        · exact same record later
      rw [fromFirst record member, fromFirst other otherMember]
    · intro same record member
      exact same record (List.mem_cons_of_mem first member) first List.mem_cons_self

theorem differ_perm {records others : List NodeRecord} (perm : records.Perm others) :
    differ records = differ others := by
  have same : differ records = false ↔ differ others = false := by
    simp only [differ_iff, perm.mem_iff]
  cases isDifferent : differ records with
  | false => exact (same.mp isDifferent).symm
  | true =>
    cases otherDifferent : differ others with
    | false => exact absurd (same.mpr otherDifferent) (by simp [isDifferent])
    | true => rfl

theorem count_perm {rollouts others : List (Rollout Reward)} (perm : rollouts.Perm others)
    (remaining index count : Nat) (counted : countShared rollouts remaining index = .ok count) :
    countShared others remaining index = .ok count := by
  induction remaining generalizing index with
  | zero => exact counted
  | succ remaining inductionHypothesis =>
    rw [countShared] at counted ⊢
    rw [← leaves_perm perm]
    by_cases leaves : leavesPrompt rollouts index = true
    · rw [if_pos leaves] at counted ⊢
      exact counted
    · rw [if_neg leaves] at counted ⊢
      cases records : sharedRecords rollouts index with
      | error problem => simp [records] at counted
      | ok found =>
        obtain ⟨otherFound, otherRecords, related⟩ := Fallible.collect_values_perm perm records
        rw [sharedRecords, otherRecords]
        simp only [records] at counted
        simp only [← differ_perm related]
        by_cases isDifferent : differ found = true
        · rw [if_pos isDifferent] at counted ⊢
          exact counted
        · rw [if_neg isDifferent] at counted ⊢
          exact inductionHypothesis (index + 1) counted

theorem fewest_perm {rollouts others : List (Rollout Reward)} (perm : rollouts.Perm others)
    (nonempty : rollouts ≠ []) : fewestNodes rollouts = fewestNodes others := by
  have otherNonempty : others ≠ [] := fun empty => nonempty (List.perm_nil.mp (empty ▸ perm))
  have same (count : Nat) : count ≤ fewestNodes rollouts ↔ count ≤ fewestNodes others := by
    simp only [le_fewest_iff nonempty, le_fewest_iff otherNonempty, perm.mem_iff]
  exact Nat.le_antisymm ((same _).mp (Nat.le_refl _)) ((same _).mpr (Nat.le_refl _))

/-- The prompt of a peer's owner, from the texts of the whole group. -/
def ownerPrompt (floats : FloatFormat Reward) (specialTokens : List Text)
    (records : List (PeerRecord Reward)) (record : PeerRecord Reward) : Except ContextError Text :=
  promptFrom specialTokens records.length
    ((records.map (peerText floats)).erase (peerText floats record))

/-- Peers without the one at a position have the texts of the group without its text. -/
theorem prompt_without (floats : FloatFormat Reward) (specialTokens : List Text)
    (records : List (PeerRecord Reward)) (index : Nat) (inside : index < records.length) :
    groupPrompt floats specialTokens records.length (records.eraseIdx index) =
      ownerPrompt floats specialTokens records records[index] := by
  rw [group_prompt_from, ownerPrompt]
  apply prompt_from_perm
  have texts : (records.map (peerText floats)).Perm
      (peerText floats records[index] :: (records.eraseIdx index).map (peerText floats)) := by
    rw [← List.map_cons]
    exact (List.getElem_cons_eraseIdx_perm inside).symm.map (peerText floats)
  have erased := texts.erase (peerText floats records[index])
  rw [List.erase_cons_head] at erased
  exact erased.symm

theorem owner_prompt_perm (floats : FloatFormat Reward) (specialTokens : List Text)
    {records others : List (PeerRecord Reward)} (perm : records.Perm others)
    (record : PeerRecord Reward) :
    ownerPrompt floats specialTokens records record =
      ownerPrompt floats specialTokens others record := by
  rw [ownerPrompt, ownerPrompt, perm.length_eq]
  exact prompt_from_perm _ _ ((perm.map (peerText floats)).erase _)

/-- Prompts by positions are prompts by owners. -/
theorem prompts_by_owner (floats : FloatFormat Reward) (specialTokens : List Text)
    (records : List (PeerRecord Reward)) (prompts : List Text) :
    Fallible.collect (fun current =>
        groupPrompt floats specialTokens records.length (records.eraseIdx current))
        (List.range records.length) = .ok prompts ↔
      Fallible.collect (ownerPrompt floats specialTokens records) records = .ok prompts := by
  rw [Fallible.collect_ok_iff, Fallible.collect_ok_iff, List.forall₂_iff_get, List.forall₂_iff_get]
  refine and_congr (by rw [List.length_range]) ?_
  constructor
  · intro each index inside promptInside
    have here := each index (by simpa using inside) promptInside
    rw [List.get_eq_getElem, List.getElem_range, prompt_without _ _ _ _ inside] at here
    exact here
  · intro each index inRange promptInside
    have inside : index < records.length := by simpa using inRange
    rw [List.get_eq_getElem, List.getElem_range, prompt_without _ _ _ _ inside]
    exact each index inside promptInside

/-- In another order of the group every rollout has the same prompt. -/
theorem prompts_follow_rollouts (floats : FloatFormat Reward) (specialTokens : List Text)
    (rollouts others : List (Rollout Reward)) (perm : rollouts.Perm others) (prompts : List Text)
    (accepted : groupLeaveOneOutPrompts floats specialTokens rollouts = .ok prompts) :
    ∃ otherPrompts, groupLeaveOneOutPrompts floats specialTokens others = .ok otherPrompts ∧
      (rollouts.zip prompts).Perm (others.zip otherPrompts) := by
  obtain ⟨several, distinct, omitted, records, counted, collected, prompted⟩ :=
    (prompts_ok_iff _ _ _ _).mp accepted
  have nonempty : rollouts ≠ [] := by
    rintro rfl
    simp at several
  obtain ⟨otherRecords, otherCollected, related⟩ := Fallible.collect_perm perm collected
  have length := Fallible.collect_length collected
  have otherLength := Fallible.collect_length otherCollected
  have recordsOf := List.map_snd_zip (Nat.le_of_eq length.symm)
  have otherRecordsOf := List.map_snd_zip (Nat.le_of_eq otherLength.symm)
  have sameRecords : records.Perm otherRecords := by
    have values := related.map Prod.snd
    rwa [recordsOf, otherRecordsOf] at values
  have paired : Fallible.collect (fun member => ownerPrompt floats specialTokens otherRecords member.2)
      (rollouts.zip records) = .ok prompts := by
    have sameOwner : ownerPrompt floats specialTokens otherRecords =
        ownerPrompt floats specialTokens records :=
      funext fun record => (owner_prompt_perm floats specialTokens sameRecords record).symm
    rw [length, prompts_by_owner] at prompted
    rw [← Fallible.collect_map, recordsOf, sameOwner]
    exact prompted
  obtain ⟨otherPrompts, otherPaired, together⟩ := Fallible.collect_perm related paired
  refine ⟨otherPrompts, ?_, ?_⟩
  · rw [prompts_ok_iff]
    refine ⟨perm.length_eq ▸ several, (perm.map Rollout.id).nodup_iff.mp distinct, omitted,
      otherRecords, ?_, otherCollected, ?_⟩
    · rw [← fewest_perm perm nonempty]
      exact count_perm perm _ _ _ counted
    · rw [otherLength, prompts_by_owner]
      rwa [← Fallible.collect_map, otherRecordsOf] at otherPaired
  · have owners := together.map (Prod.map Prod.fst id)
    rw [← List.zip_map_left, ← List.zip_map_left, List.map_fst_zip (Nat.le_of_eq length),
      List.map_fst_zip (Nat.le_of_eq otherLength)] at owners
    exact owners

set_option maxRecDepth 20000 in
theorem prompts_follow_swapped_rollouts : ∃ prompts otherPrompts,
    groupLeaveOneOutPrompts wholeRewards [] [attempt 0 0 ['<'], attempt 1 1 ['y']] = .ok prompts ∧
    groupLeaveOneOutPrompts wholeRewards [] [attempt 1 1 ['y'], attempt 0 0 ['<']] =
      .ok otherPrompts ∧
    ([attempt 0 0 ['<'], attempt 1 1 ['y']].zip prompts).Perm
      ([attempt 1 1 ['y'], attempt 0 0 ['<']].zip otherPrompts) := by
  obtain ⟨otherPrompts, accepted, together⟩ := prompts_follow_rollouts wholeRewards []
    [attempt 0 0 ['<'], attempt 1 1 ['y']] [attempt 1 1 ['y'], attempt 0 0 ['<']]
    (List.Perm.swap _ _ _) _ rfl
  exact ⟨_, otherPrompts, rfl, accepted, together⟩

end PrimeRl.Orchestrator.GroupContext
