import Mathlib.Algebra.Ring.Int.Defs
import Mathlib.Algebra.Ring.Nat
import Mathlib.Data.List.Dedup
import PrimeRl.Support.Machine
import PrimeRl.Utils.Elastic

/-!
# Runs of the elastic pool

The calls that take the lock follow each other in any order. A call that waits for
servers syncs once in each round and lets others in between. Whenever the lock is free,
a ready server has last reported an adapter that matches the desired one.
-/

namespace PrimeRl.Utils.Elastic

open ElasticInferencePool

universe u
variable {Client : Type u} {toInt : List Char → Option Int}

/-- Servers that a `sync` had still to remove when it ended. -/
def SyncOutcome.pending : SyncOutcome → List String
  | .raised pending => pending
  | _ => []

/-! ## One server -/

namespace ElasticInferencePool

variable {pool : ElasticInferencePool Client}

/-- What a server can have reported in one call. -/
def Reported (toInt : List Char → Option Int) (pool : ElasticInferencePool Client) (ip : String)
    (answers : AdapterAnswers) (loaded : Option AdapterState) : Prop :=
  loaded = pool.getLoadedAdapter toInt ip answers.models ∨
    loaded = pool.getLoadedAdapter toInt ip answers.modelsAfter

/-- A ready server last reported an adapter that matches. -/
def Matched (pool : ElasticInferencePool Client) (server : ServerState) : Prop :=
  server.status = .ready → adapterMatchesDesired pool.desired server.loadedAdapter = true

theorem synced_server_spec (toInt : List Char → Option Int) (pool : ElasticInferencePool Client)
    (ip : String) (server : ServerState) (answers : AdapterAnswers) :
    pool.Matched (pool.syncedServer toInt ip server answers).1 ∧
      pool.Reported toInt ip answers (pool.syncedServer toInt ip server answers).1.loadedAdapter := by
  unfold syncedServer
  dsimp only
  split
  · rename_i same
    exact ⟨fun _ => same, .inl rfl⟩
  · split
    · exact ⟨(fun impossible => by cases impossible), .inl rfl⟩
    · split
      · rename_i same
        exact ⟨fun _ => same, .inr rfl⟩
      · exact ⟨(fun impossible => by cases impossible), .inr rfl⟩

/-- A call writes one server that is known, and no other field of the pool. -/
theorem sync_server_adapter_cases (toInt : List Char → Option Int)
    (pool : ElasticInferencePool Client) (ip : String) (answers : AdapterAnswers) :
    (pool.servers.get? ip = none ∧ (pool.syncServerAdapter toInt ip answers).1 = pool) ∨
      ∃ server synced, pool.servers.get? ip = some server ∧
        (pool.syncServerAdapter toInt ip answers).1 =
          { pool with servers := pool.servers.set ip synced } ∧
        pool.Matched synced ∧ pool.Reported toInt ip answers synced.loadedAdapter := by
  cases known : pool.servers.get? ip with
  | none => exact .inl ⟨rfl, by rw [syncServerAdapter, known]⟩
  | some server =>
    obtain ⟨matched, reported⟩ := synced_server_spec toInt pool ip server answers
    exact .inr ⟨server, _, rfl, by rw [syncServerAdapter, known], matched, reported⟩

/-! ## The invariant -/

/-- What holds of a pool whenever the lock is free, and inside each call between its
servers. -/
structure Consistent (pool : ElasticInferencePool Client) : Prop where
  ready : ∀ ip server, pool.servers.get? ip = some server → pool.Matched server
  admin : ∀ ip, (pool.servers.get? ip).isSome = (pool.adminClients.get? ip).isSome

theorem Consistent.settings {next : ElasticInferencePool Client} (consistent : pool.Consistent)
    (servers : next.servers = pool.servers) (adminClients : next.adminClients = pool.adminClients)
    (desired : next.desired = pool.desired) : next.Consistent where
  ready := by
    intro ip server known
    rw [Matched, desired]
    exact consistent.ready ip server (servers ▸ known)
  admin := by
    intro ip
    rw [servers, adminClients]
    exact consistent.admin ip

/-- A known server gets a state in which ready means matched. -/
theorem Consistent.set (consistent : pool.Consistent) {ip : String} {server synced : ServerState}
    (known : pool.servers.get? ip = some server) (matched : pool.Matched synced) :
    Consistent { pool with servers := pool.servers.set ip synced } where
  ready := by
    intro other stored found
    rw [OrderedDict.get?_set] at found
    split at found
    · obtain rfl := Option.some.inj found
      exact matched
    · exact consistent.ready other stored found
  admin := by
    intro other
    rw [← consistent.admin other, OrderedDict.get?_set]
    split
    · rename_i same
      rw [same, known]
      rfl
    · rfl

theorem Consistent.sync_server_adapter (consistent : pool.Consistent) (ip : String)
    (answers : AdapterAnswers) : (pool.syncServerAdapter toInt ip answers).1.Consistent := by
  rcases pool.sync_server_adapter_cases toInt ip answers with ⟨-, same⟩ | ⟨server, synced, known, set, matched, -⟩
  · rw [same]
    exact consistent
  · rw [set]
    exact consistent.set known matched

theorem Consistent.remove_server (consistent : pool.Consistent) (ip : String) (closes : Bool) :
    (pool.removeServer ip closes).1.Consistent where
  ready := by
    intro other stored found
    change (pool.servers.erase ip).get? other = some stored at found
    rw [OrderedDict.get?_erase] at found
    split at found
    · cases found
    · exact consistent.ready other stored found
  admin := by
    intro other
    change ((pool.servers.erase ip).get? other).isSome = ((pool.adminClients.erase ip).get? other).isSome
    rw [OrderedDict.get?_erase, OrderedDict.get?_erase]
    split
    · rfl
    · exact consistent.admin other

/-- A server enters as discovered, and then gets the desired adapter. -/
theorem Consistent.add_server (consistent : pool.Consistent) (ip : String)
    (answers : AddAnswers Client) : (pool.addServer toInt ip answers).1.Consistent := by
  unfold addServer
  split
  · exact consistent
  · rename_i client _
    split
    · apply Consistent.sync_server_adapter
      constructor
      · intro other stored found
        rw [OrderedDict.get?_set] at found
        split at found
        · obtain rfl := Option.some.inj found
          intro impossible
          cases impossible
        · exact consistent.ready other stored found
      · intro other
        rw [OrderedDict.get?_set, OrderedDict.get?_set]
        split
        · rfl
        · exact consistent.admin other
    · exact consistent

theorem Consistent.add_servers (answers : String → AddAnswers Client) (ips : List String)
    (added : Nat) (consistent : pool.Consistent) :
    (addServers toInt answers ips pool added).1.Consistent := by
  induction ips generalizing pool added with
  | nil => exact consistent
  | cons ip rest inductionHypothesis =>
    have next : (pool.addServer toInt ip (answers ip)).1.Consistent :=
      consistent.add_server ip (answers ip)
    rw [addServers]
    split
    · rename_i isNext
      exact inductionHypothesis (added + 1) (by rw [isNext] at next; exact next)
    · rename_i isNext
      exact inductionHypothesis added (by rw [isNext] at next; exact next)
    · rename_i isNext
      rw [isNext] at next
      exact next

theorem Consistent.remove_servers (closes : String → Bool) (ips : List String) (removed : Nat)
    (consistent : pool.Consistent) : (removeServers closes ips pool removed).1.Consistent := by
  induction ips generalizing pool removed with
  | nil => exact consistent
  | cons ip rest inductionHypothesis =>
    have next : (pool.removeServer ip (closes ip)).1.Consistent :=
      consistent.remove_server ip (closes ip)
    rw [removeServers]
    split
    · rename_i isNext
      exact inductionHypothesis (removed + 1) (by rw [isNext] at next; exact next)
    · rename_i isNext
      rw [isNext] at next
      exact next

theorem Consistent.check_servers (answers : String → CheckAnswers) (ips : List String)
    (removed : Nat) (consistent : pool.Consistent) :
    (checkServers toInt answers ips pool removed).1.Consistent := by
  induction ips generalizing pool removed with
  | nil => exact consistent
  | cons ip rest inductionHypothesis =>
    rw [checkServers]
    split
    · exact inductionHypothesis removed consistent
    · split
      · split
        · exact consistent
        · split
          · exact inductionHypothesis removed (consistent.sync_server_adapter ip (answers ip).adapter)
          · exact inductionHypothesis removed consistent
      · have next : (pool.removeServer ip (answers ip).closes).1.Consistent :=
          consistent.remove_server ip (answers ip).closes
        split
        · rename_i isNext
          exact inductionHypothesis (removed + 1) (by rw [isNext] at next; exact next)
        · rename_i isNext
          rw [isNext] at next
          exact next

theorem Consistent.sync (consistent : pool.Consistent) (answers : SyncAnswers Client) :
    (pool.sync toInt answers).1.Consistent := by
  unfold ElasticInferencePool.sync
  split
  · exact consistent
  · have added : (addServers toInt answers.add answers.newOrder pool 0).1.Consistent :=
      Consistent.add_servers answers.add answers.newOrder 0 consistent
    split
    · rename_i isAdded
      rw [isAdded] at added
      exact added
    · rename_i next count isAdded
      rw [isAdded] at added
      have kept : (removeServers answers.closes answers.goneOrder next 0).1.Consistent :=
        Consistent.remove_servers answers.closes answers.goneOrder 0 added
      split
      · rename_i isKept
        rw [isKept] at kept
        exact kept
      · rename_i left removed isKept
        rw [isKept] at kept
        have checked : (checkServers toInt answers.check left.servers.keys left removed).1.Consistent :=
          Consistent.check_servers answers.check left.servers.keys removed kept
        split
        · rename_i isChecked
          rw [isChecked] at checked
          exact checked
        · rename_i isChecked
          rw [isChecked] at checked
          exact checked

/-! ## A weight sync -/

/-- Syncing servers one after the other writes each of them, and nothing else. -/
theorem sync_all_spec (toInt : List Char → Option Int) (answers : String → AdapterAnswers)
    (ips : List String) (pool : ElasticInferencePool Client) :
    ∃ servers, ips.foldl (fun current ip => (current.syncServerAdapter toInt ip (answers ip)).1) pool =
        { pool with servers := servers } ∧
      (∀ ip, (servers.get? ip).isSome = (pool.servers.get? ip).isSome) ∧
      ∀ ip server, servers.get? ip = some server →
        (ip ∈ ips → pool.Matched server ∧ pool.Reported toInt ip (answers ip) server.loadedAdapter) ∧
        (ip ∉ ips → pool.servers.get? ip = some server) := by
  induction ips generalizing pool with
  | nil =>
    exact ⟨pool.servers, rfl, fun _ => rfl, fun ip server found =>
      ⟨fun impossible => absurd impossible List.not_mem_nil, fun _ => found⟩⟩
  | cons ip rest inductionHypothesis =>
    rw [List.foldl_cons]
    rcases pool.sync_server_adapter_cases toInt ip (answers ip) with
      ⟨unknown, same⟩ | ⟨server, synced, known, set, matched, reported⟩
    · rw [same]
      obtain ⟨servers, folded, kept, written⟩ := inductionHypothesis pool
      refine ⟨servers, folded, kept, fun other stored found => ?_⟩
      obtain ⟨inRest, outside⟩ := written other stored found
      refine ⟨fun member => ?_, fun fresh => outside (fun later => fresh (.tail ip later))⟩
      rcases List.mem_cons.mp member with rfl | later
      · have absent := kept other
        rw [found, unknown] at absent
        cases absent
      · exact inRest later
    · rw [set]
      obtain ⟨servers, folded, kept, written⟩ :=
        inductionHypothesis { pool with servers := pool.servers.set ip synced }
      refine ⟨servers, folded, fun other => ?_, fun other stored found => ?_⟩
      · rw [kept other, OrderedDict.get?_set]
        split
        · rename_i same
          rw [same, known]
          rfl
        · rfl
      · obtain ⟨inRest, outside⟩ := written other stored found
        by_cases later : other ∈ rest
        · exact ⟨fun _ => inRest later, fun fresh => absurd (List.mem_cons_of_mem ip later) fresh⟩
        · have before := outside later
          rw [OrderedDict.get?_set] at before
          split at before
          · rename_i same
            obtain rfl := Option.some.inj before
            exact ⟨fun _ => by rw [same]; exact ⟨matched, reported⟩,
              fun fresh => absurd (by rw [same]; exact List.mem_cons_self) fresh⟩
          · rename_i other_
            exact ⟨fun member => absurd ((List.mem_cons.mp member).resolve_left other_) later,
              fun _ => before⟩

theorem mem_keys_iff {Value : Type u} (dict : OrderedDict String Value) (ip : String) :
    ip ∈ dict.keys ↔ (dict.get? ip).isSome := by
  rw [OrderedDict.keys, List.mem_map, Option.isSome_iff_exists]
  constructor
  · rintro ⟨entry, member, rfl⟩
    exact ⟨entry.2, (OrderedDict.get?_eq_some_iff dict entry.1 entry.2).mpr member⟩
  · rintro ⟨value, found⟩
    exact ⟨(ip, value), (OrderedDict.get?_eq_some_iff dict ip value).mp found, rfl⟩

/-- The adapter a weight sync asks for. -/
def desiredOf (weightsPath : Option Path) (loraName : Option String) (step : Int) : AdapterState where
  name := loraName
  path := if loraName.getD "" ≠ "" then weightsPath else none
  step := step

/-- After a weight sync each server has reported in this very call. -/
theorem sync_weights_spec (toInt : List Char → Option Int) (pool : ElasticInferencePool Client)
    (weightsPath : Option Path) (loraName : Option String) (step : Int)
    (answers : String → AdapterAnswers) :
    ∃ servers, pool.syncWeights toInt weightsPath loraName step answers =
        { pool with desired := desiredOf weightsPath loraName step, servers := servers } ∧
      (∀ ip, (servers.get? ip).isSome = (pool.servers.get? ip).isSome) ∧
      ∀ ip server, servers.get? ip = some server →
        Matched { pool with desired := desiredOf weightsPath loraName step } server ∧
        Reported toInt { pool with desired := desiredOf weightsPath loraName step } ip (answers ip)
          server.loadedAdapter := by
  obtain ⟨servers, folded, kept, written⟩ := sync_all_spec toInt answers pool.servers.keys
    { pool with desired := desiredOf weightsPath loraName step }
  refine ⟨servers, folded, kept, fun ip server found => (written ip server found).1 ?_⟩
  rw [mem_keys_iff, ← kept ip, found]
  rfl

theorem Consistent.sync_weights (consistent : pool.Consistent) (weightsPath : Option Path)
    (loraName : Option String) (step : Int) (answers : String → AdapterAnswers) :
    (pool.syncWeights toInt weightsPath loraName step answers).Consistent := by
  obtain ⟨servers, folded, kept, written⟩ :=
    sync_weights_spec toInt pool weightsPath loraName step answers
  rw [folded]
  exact ⟨fun ip server found => (written ip server found).1,
    fun ip => (kept ip).trans (consistent.admin ip)⟩

/-- A reported adapter is the one that was asked for by name. -/
theorem find_adapter_named {desired : AdapterState} {modelName name : String}
    {models : List (Option ModelEntry)} {loaded : AdapterState} (asked : desired.name = some name)
    (named : name ≠ "") (found : findAdapter toInt desired modelName models = some loaded) :
    loaded.name = some name := by
  induction models with
  | nil => cases found
  | cons model rest inductionHypothesis =>
    cases model with
    | none => cases found
    | some model =>
      rw [findAdapter] at found
      split at found
      · rename_i selected
        have isName : model.id = .text name := by
          rw [selects, asked] at selected
          simpa [named] using selected
        rw [isName] at found
        dsimp only at found
        split at found
        · exact (Option.some.inj found) ▸ rfl
        · exact (Option.some.inj found) ▸ rfl
        · cases found
      · exact inductionHypothesis found

theorem reported_named {ip name : String} {answers : AdapterAnswers} {loaded : AdapterState}
    (asked : pool.desired.name = some name) (named : name ≠ "")
    (reported : pool.Reported toInt ip answers (some loaded)) : loaded.name = some name := by
  have fromModels {models : Models} (isLoaded : some loaded = pool.getLoadedAdapter toInt ip models) :
      loaded.name = some name := by
    rw [getLoadedAdapter] at isLoaded
    split at isLoaded
    · cases isLoaded
    · obtain ⟨listed, -, found⟩ := Option.bind_eq_some_iff.mp isLoaded.symm
      exact find_adapter_named asked named found
  rcases reported with before | after
  · exact fromModels before
  · exact fromModels after

/-! ## Which servers are known -/

theorem sync_server_adapter_known (ip other : String) (answers : AdapterAnswers) :
    ((pool.syncServerAdapter toInt ip answers).1.servers.get? other).isSome =
      (pool.servers.get? other).isSome := by
  rcases pool.sync_server_adapter_cases toInt ip answers with
    ⟨-, same⟩ | ⟨server, synced, known, set, -⟩
  · rw [same]
  · rw [set, OrderedDict.get?_set]
    split
    · rename_i same
      rw [same, known]
      rfl
    · rfl

theorem remove_server_known (ip other : String) (closes : Bool)
    (known : ((pool.removeServer ip closes).1.servers.get? other).isSome) :
    other ≠ ip ∧ (pool.servers.get? other).isSome := by
  change ((pool.servers.erase ip).get? other).isSome at known
  rw [OrderedDict.get?_erase] at known
  split at known
  · cases known
  · rename_i different
    exact ⟨different, known⟩

theorem add_server_known (ip other : String) (answers : AddAnswers Client)
    (known : ((pool.addServer toInt ip answers).1.servers.get? other).isSome) :
    other = ip ∨ (pool.servers.get? other).isSome := by
  unfold addServer at known
  split at known
  · exact .inr known
  · split at known
    · rw [sync_server_adapter_known, OrderedDict.get?_set] at known
      split at known
      · rename_i same
        exact .inl same
      · exact .inr known
    · exact .inr known

theorem add_servers_known (answers : String → AddAnswers Client) (ips : List String) (added : Nat)
    (other : String) (known : ((addServers toInt answers ips pool added).1.servers.get? other).isSome) :
    other ∈ ips ∨ (pool.servers.get? other).isSome := by
  induction ips generalizing pool added with
  | nil => exact .inr known
  | cons ip rest inductionHypothesis =>
    have next (isKnown : ((pool.addServer toInt ip (answers ip)).1.servers.get? other).isSome) :
        other ∈ ip :: rest ∨ (pool.servers.get? other).isSome := by
      rcases add_server_known ip other (answers ip) isKnown with rfl | before
      · exact .inl List.mem_cons_self
      · exact .inr before
    rw [addServers] at known
    split at known
    · rename_i isNext
      rcases inductionHypothesis (added + 1) known with later | before
      · exact .inl (List.mem_cons_of_mem ip later)
      · exact next (by rw [isNext]; exact before)
    · rename_i isNext
      rcases inductionHypothesis added known with later | before
      · exact .inl (List.mem_cons_of_mem ip later)
      · exact next (by rw [isNext]; exact before)
    · rename_i isNext
      exact next (by rw [isNext]; exact known)

/-- Servers that the removal loop did not get to. -/
def unremoved : Except (List String) Nat → List String
  | .ok _ => []
  | .error pending => pending

theorem remove_servers_known (closes : String → Bool) (ips : List String) (removed : Nat)
    (other : String) (known : ((removeServers closes ips pool removed).1.servers.get? other).isSome) :
    (pool.servers.get? other).isSome ∧
      (other ∈ ips → other ∈ unremoved (removeServers closes ips pool removed).2) := by
  induction ips generalizing pool removed with
  | nil => exact ⟨known, fun impossible => absurd impossible List.not_mem_nil⟩
  | cons ip rest inductionHypothesis =>
    rw [removeServers] at known ⊢
    have gone (isKnown : ((pool.removeServer ip (closes ip)).1.servers.get? other).isSome) :=
      remove_server_known ip other (closes ip) isKnown
    split at known
    · rename_i next isNext
      obtain ⟨inNext, waits⟩ := inductionHypothesis (removed + 1) known
      obtain ⟨different, before⟩ := gone (by rw [isNext]; exact inNext)
      exact ⟨before, fun member => waits ((List.mem_cons.mp member).resolve_left different)⟩
    · rename_i next isNext
      obtain ⟨different, before⟩ := gone (by rw [isNext]; exact known)
      exact ⟨before, fun member => (List.mem_cons.mp member).resolve_left different⟩

theorem check_servers_known (answers : String → CheckAnswers) (ips : List String) (removed : Nat)
    (other : String) (known : ((checkServers toInt answers ips pool removed).1.servers.get? other).isSome) :
    (pool.servers.get? other).isSome := by
  induction ips generalizing pool removed with
  | nil => exact known
  | cons ip rest inductionHypothesis =>
    rw [checkServers] at known
    split at known
    · exact inductionHypothesis removed known
    · split at known
      · split at known
        · exact known
        · split at known
          · have before := inductionHypothesis removed known
            rw [sync_server_adapter_known] at before
            exact before
          · exact inductionHypothesis removed known
      · have gone (isKnown : ((pool.removeServer ip (answers ip).closes).1.servers.get? other).isSome) :=
          (remove_server_known ip other (answers ip).closes isKnown).2
        split at known
        · rename_i isNext
          exact gone (by rw [isNext]; exact inductionHypothesis (removed + 1) known)
        · rename_i isNext
          exact gone (by rw [isNext]; exact known)

/-- The sets of a `sync` are iterated in some order. -/
def Ordered (pool : ElasticInferencePool Client) (answers : SyncAnswers Client) : Prop :=
  ∀ discovered ∈ answers.discovered,
    answers.newOrder.Perm (discovered.dedup.filter (fun ip => ip ∉ pool.servers.keys)) ∧
    answers.goneOrder.Perm (pool.servers.keys.filter (fun ip => ip ∉ discovered))

instance (pool : ElasticInferencePool Client) (answers : SyncAnswers Client) :
    Decidable (pool.Ordered answers) :=
  inferInstanceAs (Decidable (∀ discovered ∈ answers.discovered, _ ∧ _))

theorem sync_unanswered (pool : ElasticInferencePool Client) {answers : SyncAnswers Client}
    (unanswered : answers.discovered = none) : pool.sync toInt answers = (pool, .lookupRaised) := by
  rw [ElasticInferencePool.sync, unanswered]

theorem sync_answered (toInt : List Char → Option Int) (pool : ElasticInferencePool Client)
    {answers : SyncAnswers Client} {discovered : List String} (answered : answers.discovered = some discovered) :
    (pool.sync toInt answers).2 ≠ .lookupRaised := by
  unfold ElasticInferencePool.sync
  rw [answered]
  dsimp only
  split
  · exact SyncOutcome.noConfusion
  · split
    · exact SyncOutcome.noConfusion
    · split
      · exact SyncOutcome.noConfusion
      · exact SyncOutcome.noConfusion

/-- A server that is known after a `sync` is in the answer, or its removal is pending. -/
theorem sync_known {answers : SyncAnswers Client} {discovered : List String}
    (answered : answers.discovered = some discovered) (ordered : pool.Ordered answers)
    (other : String) (known : ((pool.sync toInt answers).1.servers.get? other).isSome) :
    other ∈ discovered ∨ other ∈ (pool.sync toInt answers).2.pending := by
  obtain ⟨newOrder, goneOrder⟩ := ordered discovered answered
  have afterAdding (isKnown : ((addServers toInt answers.add answers.newOrder pool 0).1.servers.get?
      other).isSome) : other ∈ discovered ∨ other ∈ answers.goneOrder := by
    by_cases listed : other ∈ discovered
    · exact .inl listed
    · refine .inr (goneOrder.symm.subset (List.mem_filter.mpr ⟨?_, decide_eq_true listed⟩))
      rcases add_servers_known answers.add answers.newOrder 0 other isKnown with new | before
      · exact absurd (List.mem_dedup.mp (List.mem_filter.mp (newOrder.subset new)).1) listed
      · exact (mem_keys_iff pool.servers other).mpr before
  revert known
  unfold ElasticInferencePool.sync
  rw [answered]
  dsimp only
  split
  · rename_i next isAdded
    rw [isAdded] at afterAdding
    exact afterAdding
  · rename_i next count isAdded
    rw [isAdded] at afterAdding
    have removes (isKnown : ((removeServers answers.closes answers.goneOrder next 0).1.servers.get?
        other).isSome) := remove_servers_known answers.closes answers.goneOrder 0 other isKnown
    split
    · rename_i left pending isKept
      rw [isKept] at removes
      intro known
      obtain ⟨inNext, waits⟩ := removes known
      rcases afterAdding inNext with listed | gone
      · exact .inl listed
      · exact .inr (waits gone)
    · rename_i left removed isKept
      rw [isKept] at removes
      have checks (isKnown : ((checkServers toInt answers.check left.servers.keys left
          removed).1.servers.get? other).isSome) :=
        check_servers_known answers.check left.servers.keys removed other isKnown
      have listed (inLeft : (left.servers.get? other).isSome) : other ∈ discovered := by
        obtain ⟨inNext, waits⟩ := removes inLeft
        rcases afterAdding inNext with listed | gone
        · exact listed
        · exact absurd (waits gone) List.not_mem_nil
      split
      · rename_i isChecked
        rw [isChecked] at checks
        exact fun known => .inl (listed (checks known))
      · rename_i isChecked
        rw [isChecked] at checks
        exact fun known => .inl (listed (checks known))

/-! ## Exposed servers -/

theorem inference_url_injective (pool : ElasticInferencePool Client) {ip other : String}
    (same : pool.buildInferenceUrl ip = pool.buildInferenceUrl other) : ip = other := by
  have chars := congrArg String.toList same
  simp only [buildInferenceUrl, String.toList_append, List.append_assoc] at chars
  exact String.toList_injective (List.append_cancel_right (List.append_cancel_left chars))

theorem mem_ready_urls (pool : ElasticInferencePool Client) (url : String) :
    url ∈ pool.readyUrls ↔ ∃ ip server, pool.servers.get? ip = some server ∧
      server.status = .ready ∧ url = pool.buildInferenceUrl ip := by
  rw [readyUrls, List.mem_map]
  constructor
  · rintro ⟨⟨ip, server⟩, listed, rfl⟩
    obtain ⟨member, ready⟩ := List.mem_filter.mp listed
    exact ⟨ip, server, (OrderedDict.get?_eq_some_iff _ _ _).mpr member, of_decide_eq_true ready, rfl⟩
  · rintro ⟨ip, server, found, ready, rfl⟩
    exact ⟨(ip, server), List.mem_filter.mpr
      ⟨(OrderedDict.get?_eq_some_iff _ _ _).mp found, decide_eq_true ready⟩, rfl⟩

theorem ready_urls_nodup (pool : ElasticInferencePool Client) : pool.readyUrls.Nodup := by
  have ips : ((pool.servers.entries.filter (fun entry => entry.2.status = .ready)).map
      Prod.fst).Nodup := pool.servers.distinct.sublist (List.filter_sublist.map Prod.fst)
  have urls := ips.map (f := pool.buildInferenceUrl)
    (fun _ _ same => pool.inference_url_injective same)
  rw [List.map_map] at urls
  exact urls

/-- The clients of the workers are those of the ready servers, or of the router when a
server is ready behind it. -/
theorem rebuild_clients_exposes (pool : ElasticInferencePool Client) (url : String) :
    url ∈ pool.rebuildClients.clientUrls ↔
      if pool.routerUrl.getD "" ≠ "" ∧ pool.readyUrls ≠ [] then url = pool.routerUrl.getD ""
      else url ∈ pool.readyUrls := by
  unfold rebuildClients
  dsimp only
  by_cases behind : pool.routerUrl.getD "" ≠ "" ∧ pool.readyUrls ≠ []
  · rw [if_pos behind, if_pos behind, ← List.mem_singleton]
    split
    · rename_i same
      exact ⟨fun member => same.2 member, fun member => same.1 member⟩
    · exact Iff.rfl
  · rw [if_neg behind, if_neg behind]
    split
    · rename_i same
      exact ⟨fun member => same.2 member, fun member => same.1 member⟩
    · exact Iff.rfl

end ElasticInferencePool

/-! ## Runs -/

/-- A pool with the last answer of the name lookup, the servers whose removal was cut
short, and the numbers of servers that waiting calls ask for. -/
structure PoolRun (Client : Type u) where
  pool : ElasticInferencePool Client
  answered : Option (List String) := none
  pending : List String := []
  waiting : List Int := []

inductive PoolAction (Client : Type u) where
  | sync (answers : SyncAnswers Client)
  | waitForReady (minServers : Int)
  | attempt (index : Nat) (answers : SyncAnswers Client)
  | timeout (index : Nat)
  | syncWeights (weightsPath : Option Path) (loraName : Option String) (step : Int)
      (answers : String → AdapterAnswers)
  | updateModelName (modelName : String)

namespace PoolRun

/-- One `sync` under the lock. -/
def synced (toInt : List Char → Option Int) (run : PoolRun Client) (answers : SyncAnswers Client) :
    PoolRun Client :=
  match run.pool.sync toInt answers with
  | (pool, .lookupRaised) => { run with pool := pool }
  | (pool, outcome) =>
    { run with pool := pool, answered := answers.discovered, pending := outcome.pending }

/-- A waiting call goes on as long as its `sync` returns and too few servers are ready. -/
def step (toInt : List Char → Option Int) (run : PoolRun Client) :
    PoolAction Client → Option (PoolRun Client)
  | .sync answers => if run.pool.Ordered answers then some (run.synced toInt answers) else none
  | .waitForReady minServers => some { run with waiting := run.waiting ++ [minServers] }
  | .attempt index answers =>
    run.waiting[index]?.bind (fun minServers =>
      if run.pool.Ordered answers then
        let next := run.synced toInt answers
        match (run.pool.sync toInt answers).2 with
        | .returned _ _ =>
          if minServers ≤ next.pool.numReadyServers then
            some { next with waiting := next.waiting.eraseIdx index }
          else some next
        | _ => some { next with waiting := next.waiting.eraseIdx index }
      else none)
  | .timeout index =>
    if index < run.waiting.length then some { run with waiting := run.waiting.eraseIdx index } else none
  | .syncWeights weightsPath loraName step answers =>
    some { run with pool := run.pool.syncWeights toInt weightsPath loraName step answers }
  | .updateModelName modelName => some { run with pool := run.pool.updateModelName modelName }

/-- A pool without servers. -/
def start (modelName : String) (port : Int) (routerUrl : Option String) : PoolRun Client where
  pool := { modelName := modelName, baseModelName := modelName, port := port, routerUrl := routerUrl }

/-- The pool is consistent, and its servers are in the last answer or wait for their removal. -/
structure Served (run : PoolRun Client) : Prop where
  consistent : run.pool.Consistent
  known : ∀ ip, (run.pool.servers.get? ip).isSome →
    (∃ discovered, run.answered = some discovered ∧ ip ∈ discovered) ∨ ip ∈ run.pending

theorem start_served (modelName : String) (port : Int) (routerUrl : Option String) :
    Served (start modelName port routerUrl : PoolRun Client) where
  consistent := ⟨(fun _ _ impossible => nomatch impossible), fun _ => rfl⟩
  known := fun _ impossible => nomatch impossible

variable {run next : PoolRun Client}

theorem Served.synced (served : run.Served) {answers : SyncAnswers Client}
    (ordered : run.pool.Ordered answers) : (run.synced toInt answers).Served := by
  have consistent : (run.pool.sync toInt answers).1.Consistent := served.consistent.sync answers
  cases answered : answers.discovered with
  | none =>
    have same : run.synced toInt answers = run := by
      rw [PoolRun.synced, sync_unanswered run.pool answered]
    rw [same]
    exact served
  | some discovered =>
    have isSynced : run.synced toInt answers =
        { run with
          pool := (run.pool.sync toInt answers).1
          answered := some discovered
          pending := (run.pool.sync toInt answers).2.pending } := by
      have raised := sync_answered toInt run.pool answered
      unfold PoolRun.synced
      split
      · rename_i isLookup
        rw [isLookup] at raised
        exact absurd rfl raised
      · rename_i pool outcome _ isOutcome
        rw [isOutcome, answered]
    rw [isSynced]
    refine ⟨consistent, fun ip isKnown => ?_⟩
    rcases sync_known answered ordered ip isKnown with listed | pending
    · exact .inl ⟨discovered, rfl, listed⟩
    · exact .inr pending

theorem Served.step (served : run.Served) (action : PoolAction Client)
    (accepted : run.step toInt action = some next) : next.Served := by
  cases action with
  | sync answers =>
    obtain ⟨ordered, ⟨rfl⟩⟩ := Option.ite_none_right_eq_some.mp accepted
    exact served.synced ordered
  | waitForReady minServers =>
    obtain rfl := Option.some.inj accepted
    exact ⟨served.consistent, served.known⟩
  | attempt index answers =>
    obtain ⟨minServers, -, accepted⟩ := Option.bind_eq_some_iff.mp accepted
    obtain ⟨ordered, accepted⟩ := Option.ite_none_right_eq_some.mp accepted
    have after : (run.synced toInt answers).Served := served.synced ordered
    dsimp only at accepted
    split at accepted
    · split at accepted
      · obtain rfl := Option.some.inj accepted
        exact ⟨after.consistent, after.known⟩
      · obtain rfl := Option.some.inj accepted
        exact after
    · obtain rfl := Option.some.inj accepted
      exact ⟨after.consistent, after.known⟩
  | timeout index =>
    obtain ⟨-, ⟨rfl⟩⟩ := Option.ite_none_right_eq_some.mp accepted
    exact ⟨served.consistent, served.known⟩
  | syncWeights weightsPath loraName step answers =>
    obtain rfl := Option.some.inj accepted
    refine ⟨served.consistent.sync_weights weightsPath loraName step answers, fun ip isKnown => ?_⟩
    obtain ⟨servers, folded, kept, -⟩ :=
      sync_weights_spec toInt run.pool weightsPath loraName step answers
    rw [folded] at isKnown
    exact served.known ip ((kept ip) ▸ isKnown)
  | updateModelName modelName =>
    obtain rfl := Option.some.inj accepted
    exact ⟨served.consistent.settings rfl rfl rfl, served.known⟩

/-- Whenever the lock is free, a ready server last reported an adapter that matches, there
is one admin client for each server, every server is in the last answer unless its removal
was cut short, and the ready servers are the exposed ones. After a weight sync to an
adapter, a ready server has reported in that call an adapter of the new name, at the new
path or of the same positive step. -/
theorem pool_exposes_matching {modelName : String} {port : Int} {routerUrl : Option String}
    {actions : List (PoolAction Client)}
    (ran : Machine.run (step toInt) (start modelName port routerUrl) actions = some run) :
    (∀ ip server, run.pool.servers.get? ip = some server → server.status = .ready →
      adapterMatchesDesired run.pool.desired server.loadedAdapter = true) ∧
    (∀ ip, ip ∈ run.pool.servers.keys ↔ ip ∈ run.pool.adminClients.keys) ∧
    (∀ ip ∈ run.pool.servers.keys,
      (∃ discovered, run.answered = some discovered ∧ ip ∈ discovered) ∨ ip ∈ run.pending) ∧
    (∀ url, url ∈ run.pool.readyUrls ↔ ∃ ip server, run.pool.servers.get? ip = some server ∧
      server.status = .ready ∧ url = run.pool.buildInferenceUrl ip) ∧
    run.pool.readyUrls.Nodup ∧
    ∀ (weightsPath : Path) (loraName : String) (step : Int) (answers : String → AdapterAnswers),
      loraName ≠ "" →
      ∀ ip server, (run.pool.syncWeights toInt (some weightsPath) (some loraName) step
          answers).servers.get? ip = some server → server.status = .ready →
        ∃ loaded, server.loadedAdapter = some loaded ∧
          Reported toInt
            { run.pool with desired := ⟨some loraName, some weightsPath, step⟩ } ip (answers ip)
            (some loaded) ∧
          loaded.name = some loraName ∧
          (loaded.path = some weightsPath ∨ 0 < step ∧ loaded.step = step) := by
  have served : run.Served := Machine.run_invariant Served
    (fun _ action _ served accepted => served.step action accepted)
    (start_served modelName port routerUrl) ran
  refine ⟨served.consistent.ready, fun ip => ?_, fun ip member => ?_, run.pool.mem_ready_urls,
    run.pool.ready_urls_nodup, ?_⟩
  · rw [mem_keys_iff, mem_keys_iff, served.consistent.admin ip]
  · exact served.known ip ((mem_keys_iff _ ip).mp member)
  · intro weightsPath loraName step answers named ip server found ready
    obtain ⟨servers, folded, -, written⟩ :=
      sync_weights_spec toInt run.pool (some weightsPath) (some loraName) step answers
    rw [folded] at found
    obtain ⟨matched, reported⟩ := written ip server found
    have isDesired : desiredOf (some weightsPath) (some loraName) step =
        ⟨some loraName, some weightsPath, step⟩ := by
      rw [desiredOf, if_pos (show (some loraName).getD "" ≠ "" from named)]
    rw [isDesired] at matched reported
    have same := matched ready
    cases isLoaded : server.loadedAdapter with
    | none =>
      rw [isLoaded] at same
      cases same
    | some loaded =>
      rw [isLoaded] at same reported
      exact ⟨loaded, rfl, reported, reported_named rfl named reported, of_decide_eq_true same⟩

/-- Decimal digits, as `int` reads them. -/
def readDigits (text : List Char) : Option Int :=
  if text ≠ [] ∧ text.all Char.isDigit then
    some (text.foldl (fun (read : Int) digit => 10 * read + (digit.toNat - 48)) 0)
  else none

/-- What a server lists: the base model, and an adapter from a directory. -/
def listing (roots : List String) : Models :=
  some (some ⟨.text "base", .missing, .text "base"⟩ ::
    roots.map (fun root => some ⟨.text "lora", .text "base", .text root⟩))

/-- One server is found, answers its health checks, and lists only the base model. -/
def oneServer : SyncAnswers Unit where
  discovered := some ["10.0.0.1"]
  newOrder := ["10.0.0.1"]
  goneOrder := []
  add := fun _ => ⟨some (), ⟨true, listing []⟩, true, ⟨listing [], true, listing []⟩⟩
  closes := fun _ => true
  check := fun _ => ⟨⟨true, listing []⟩, true, ⟨listing [], true, listing []⟩⟩

/-- An adapter of step 5 is loaded, and then the next one. -/
theorem pool_exposes_next_adapter :
    let actions : List (PoolAction Unit) :=
      [.sync oneServer,
        .syncWeights (some (Path.ofText "/first/step_5".toList)) (some "lora") 5
          (fun _ => ⟨listing [], true, listing ["/first/step_5"]⟩)]
    let answers : String → AdapterAnswers :=
      fun _ => ⟨listing ["/first/step_5"], true, listing ["/first/step_6"]⟩
    ∃ run, Machine.run (step readDigits) (start "base" 8000 none) actions = some run ∧
      (run.pool.syncWeights readDigits (some (Path.ofText "/first/step_6".toList)) (some "lora") 6
        answers).readyUrls = ["http://10.0.0.1:8000/v1"] ∧
      ∀ ip server, (run.pool.syncWeights readDigits (some (Path.ofText "/first/step_6".toList))
          (some "lora") 6 answers).servers.get? ip = some server → server.status = .ready →
        ∃ loaded, server.loadedAdapter = some loaded ∧ loaded.name = some "lora" ∧
          (loaded.path = some (Path.ofText "/first/step_6".toList) ∨ loaded.step = 6) := by
  intro actions answers
  obtain ⟨run, ran, shown⟩ := Option.map_eq_some_iff.mp
    (show (Machine.run (step readDigits) (start "base" 8000 none) actions).map
        (fun run => (run.pool.syncWeights readDigits (some (Path.ofText "/first/step_6".toList))
          (some "lora") 6 answers).readyUrls) = some ["http://10.0.0.1:8000/v1"] by decide +kernel)
  refine ⟨run, ran, shown, fun ip server found ready => ?_⟩
  obtain ⟨loaded, isLoaded, -, named, same⟩ :=
    (pool_exposes_matching ran).2.2.2.2.2 _ _ _ _ (by decide) ip server found ready
  exact ⟨loaded, isLoaded, named, same.imp_right And.right⟩

/-- A server keeps an earlier adapter and is ready on its strength, when the new adapter is
of the same step. -/
theorem sync_weights_same_step :
    ¬∀ (toInt : List Char → Option Int) (actions : List (PoolAction Unit)) (run : PoolRun Unit),
      Machine.run (step toInt) (start "base" 8000 none) actions = some run →
      ∀ (earlier weightsPath : Path) (loraName : String) (step : Int)
        (answers : String → AdapterAnswers),
        run.pool.desired.path = some earlier → weightsPath ≠ earlier → loraName ≠ "" →
        ∀ ip server, (run.pool.syncWeights toInt (some weightsPath) (some loraName) step
            answers).servers.get? ip = some server → server.status = .ready →
          server.loadedAdapter.bind AdapterState.path ≠ some earlier := by
  intro fresh
  obtain ⟨run, ran, earlier⟩ := Option.map_eq_some_iff.mp
    (show (Machine.run (step readDigits) (start "base" 8000 none)
        ([.sync oneServer,
          .syncWeights (some (Path.ofText "/first/step_5".toList)) (some "lora") 5
            (fun _ => ⟨listing [], true, listing ["/first/step_5"]⟩)] : List (PoolAction Unit))).map
        (fun run => (run.pool.desired.path,
          ((run.pool.syncWeights readDigits (some (Path.ofText "/second/step_5".toList)) (some "lora") 5
            (fun _ => ⟨listing ["/first/step_5"], true, listing ["/second/step_5"]⟩)).servers.get?
              "10.0.0.1").map (fun server =>
                (server.status, server.loadedAdapter.bind AdapterState.path)))) =
      some (some (Path.ofText "/first/step_5".toList),
        some (.ready, some (Path.ofText "/first/step_5".toList))) by decide +kernel)
  obtain ⟨isEarlier, found⟩ := Prod.mk.inj earlier
  obtain ⟨server, known, shown⟩ := Option.map_eq_some_iff.mp found
  obtain ⟨ready, keeps⟩ := Prod.mk.inj shown
  exact fresh readDigits _ run ran _ (Path.ofText "/second/step_5".toList) "lora" 5 _ isEarlier
    (by decide +kernel) (by decide) "10.0.0.1" server known ready keeps

end PoolRun

end PrimeRl.Utils.Elastic
