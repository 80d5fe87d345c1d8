import PrimeRl.Support.OrderedDict

/-!
# The elastic inference pool

Servers are discovered by name lookup and exposed once they report the desired
adapter. All remote calls are answered by the environment: an answer fails or has a
content, and the pool must cope with every one of them. The lock serializes `sync`
and `sync_weights`, so each of them is one function of the pool and its answers.
-/

namespace PrimeRl.Utils.Elastic

universe u
variable {Client : Type u}

/-- A path, as it is compared: its root, and its parts without empty and `.` ones. -/
structure Path where
  root : List Char
  parts : List (List Char)
deriving DecidableEq, Repr

def Path.ofText (text : List Char) : Path where
  root :=
    -- exactly two slashes are a root of their own
    if ['/', '/'].isPrefixOf text && ! ['/', '/', '/'].isPrefixOf text then ['/', '/']
    else if ['/'].isPrefixOf text then ['/']
    else []
  parts := (text.splitOn '/').filter (fun part => part ≠ [] ∧ part ≠ ['.'])

def Path.name (path : Path) : List Char := path.parts.getLast?.getD []

structure AdapterState where
  name : Option String := none
  path : Option Path := none
  step : Int := 0
deriving DecidableEq, Repr

inductive ServerStatus where
  | discovering
  | syncing
  | ready
  | unhealthy
deriving DecidableEq, Repr

structure ServerState where
  ip : String
  url : String
  status : ServerStatus := .discovering
  loadedAdapter : Option AdapterState := none
  syncFailures : Nat := 0
deriving DecidableEq, Repr

structure ElasticInferencePool (Client : Type u) where
  modelName : String
  baseModelName : String
  port : Int
  routerUrl : Option String
  servers : OrderedDict String ServerState := .empty
  adminClients : OrderedDict String Client := .empty
  desired : AdapterState := {}
  clientUrls : List String := []

/-! ## Answers -/

/-- A field of a listed model: absent, a string, or any other value. -/
inductive Field where
  | missing
  | text (value : String)
  | other
deriving DecidableEq, Repr

structure ModelEntry where
  id : Field
  parent : Field
  root : Field
deriving DecidableEq, Repr

/-- The answer to `/v1/models`: a failed request or a body of another shape, or the
listed models. A listed item that is no object has no fields to read. -/
abbrev Models := Option (List (Option ModelEntry))

structure HealthAnswers where
  health : Bool
  models : Models

structure AdapterAnswers where
  models : Models
  load : Bool
  modelsAfter : Models

structure AddAnswers (Client : Type u) where
  client : Option Client
  health : HealthAnswers
  closes : Bool
  adapter : AdapterAnswers

structure CheckAnswers where
  health : HealthAnswers
  closes : Bool
  adapter : AdapterAnswers

/-- The answers to one `sync`. Sets are iterated in any order. -/
structure SyncAnswers (Client : Type u) where
  discovered : Option (List String)
  newOrder : List String
  goneOrder : List String
  add : String → AddAnswers Client
  closes : String → Bool
  check : String → CheckAnswers

/-- How a `sync` ends. When a client does not close, the servers it had still to
remove stay. -/
inductive SyncOutcome where
  | returned (added removed : Nat)
  | lookupRaised
  | raised (pending : List String)
deriving DecidableEq, Repr

/-! ## Adapters -/

/-- The step in a directory name; `toInt` reads an integer or refuses. -/
def parseStep (toInt : List Char → Option Int) (name : List Char) : Int :=
  if "step_".toList.isPrefixOf name then ((name.splitOn '_')[1]?.bind toInt).getD 0
  else if "step-".toList.isPrefixOf name then ((name.splitOn '-')[1]?.bind toInt).getD 0
  else 0

/-- The loop skips a model under another name, or of another base model when no
adapter has been asked for. -/
def selects (desired : AdapterState) (modelName : String) (model : ModelEntry) : Bool :=
  match desired.name with
  | none => model.parent = .text modelName ∧ modelName ≠ ""
  | some name =>
    if name = "" then model.parent = .text modelName ∧ modelName ≠ ""
    else model.id = .text name

/-- The first listed adapter that is selected. An item without fields, or a root that
is no string, raises and is reported as no adapter. -/
def findAdapter (toInt : List Char → Option Int) (desired : AdapterState) (modelName : String) :
    List (Option ModelEntry) → Option AdapterState
  | [] => none
  | none :: _ => none
  | some model :: rest =>
    if selects desired modelName model then
      let name : Option String :=
        match model.id with
        | .missing => some ""
        | .text value => some value
        | .other => none
      match model.root with
      | .missing => some { name := name, path := some (Path.ofText []), step := 0 }
      | .text root =>
        let path := Path.ofText root.toList
        some { name := name, path := some path, step := parseStep toInt path.name }
      | .other => none
    else findAdapter toInt desired modelName rest

namespace ElasticInferencePool

def buildUrl (pool : ElasticInferencePool Client) (ip : String) : String :=
  "http://" ++ ip ++ ":" ++ toString pool.port

def buildInferenceUrl (pool : ElasticInferencePool Client) (ip : String) : String :=
  "http://" ++ ip ++ ":" ++ toString pool.port ++ "/v1"

def readyUrls (pool : ElasticInferencePool Client) : List String :=
  (pool.servers.entries.filter (fun entry => entry.2.status = .ready)).map
    (fun entry => pool.buildInferenceUrl entry.1)

def numReadyServers (pool : ElasticInferencePool Client) : Nat :=
  pool.servers.values.countP (fun server => server.status = .ready)

/-- The exposed URLs change when the set of ready ones does. -/
def rebuildClients (pool : ElasticInferencePool Client) : ElasticInferencePool Client :=
  let router := pool.routerUrl.getD ""
  let urls := if router ≠ "" ∧ pool.readyUrls ≠ [] then [router] else pool.readyUrls
  if urls ⊆ pool.clientUrls ∧ pool.clientUrls ⊆ urls then pool else { pool with clientUrls := urls }

def updateModelName (pool : ElasticInferencePool Client) (modelName : String) :
    ElasticInferencePool Client :=
  { pool with modelName := modelName }

def getLoadedAdapter (toInt : List Char → Option Int) (pool : ElasticInferencePool Client)
    (ip : String) (models : Models) : Option AdapterState :=
  match pool.adminClients.get? ip with
  | none => none
  | some _ => models.bind (findAdapter toInt pool.desired pool.modelName)

def adapterMatchesDesired (desired : AdapterState) (loaded : Option AdapterState) : Bool :=
  match desired.path with
  | none => true
  | some _ =>
    match loaded with
    | none => false
    | some loaded => loaded.path = desired.path ∨ 0 < desired.step ∧ loaded.step = desired.step

/-- What `_sync_server_adapter` makes of a known server, and its result. The load is
only attempted when the server does not report a matching adapter. The status `syncing`
is set while it runs and always replaced. -/
def syncedServer (toInt : List Char → Option Int) (pool : ElasticInferencePool Client) (ip : String)
    (server : ServerState) (answers : AdapterAnswers) : ServerState × Bool :=
  let loaded := pool.getLoadedAdapter toInt ip answers.models
  if adapterMatchesDesired pool.desired loaded then
    ({ server with loadedAdapter := loaded, status := .ready }, true)
  else if pool.desired.name.getD "" ≠ "" ∧ pool.desired.path ≠ none ∧
      ¬((pool.adminClients.get? ip).isSome ∧ answers.load) then
    ({ server with
        loadedAdapter := loaded
        status := .unhealthy
        syncFailures := server.syncFailures + 1 }, false)
  else
    let reloaded := pool.getLoadedAdapter toInt ip answers.modelsAfter
    if adapterMatchesDesired pool.desired reloaded then
      ({ server with loadedAdapter := reloaded, status := .ready, syncFailures := 0 }, true)
    else
      ({ server with
          loadedAdapter := reloaded
          status := .unhealthy
          syncFailures := server.syncFailures + 1 }, false)

def syncServerAdapter (toInt : List Char → Option Int) (pool : ElasticInferencePool Client)
    (ip : String) (answers : AdapterAnswers) : ElasticInferencePool Client × Bool :=
  match pool.servers.get? ip with
  | none => (pool, false)
  | some server =>
    let (synced, result) := pool.syncedServer toInt ip server answers
    ({ pool with servers := pool.servers.set ip synced }, result)

/-! ## Discovery -/

/-- The server answers `/health` and lists the base model. -/
def checkServerHealth (pool : ElasticInferencePool Client) (answers : HealthAnswers) : Bool :=
  answers.health &&
    match answers.models with
    | none => false
    | some models =>
      models.all Option.isSome &&
        models.any (fun model => model.map ModelEntry.id = some (.text pool.baseModelName))

/-- Add a healthy server. The result is missing when the client of an unhealthy one
raised while it was closed. -/
def addServer (toInt : List Char → Option Int) (pool : ElasticInferencePool Client) (ip : String)
    (answers : AddAnswers Client) : ElasticInferencePool Client × Option Bool :=
  match answers.client with
  | none => (pool, some false)
  | some client =>
    if pool.checkServerHealth answers.health then
      let added :=
        { pool with
          adminClients := pool.adminClients.set ip client
          servers := pool.servers.set ip { ip := ip, url := pool.buildUrl ip } }
      ((added.syncServerAdapter toInt ip answers.adapter).1, some true)
    else (pool, if answers.closes then some false else none)

/-- Remove a server. The result says whether its client closed. -/
def removeServer (pool : ElasticInferencePool Client) (ip : String) (closes : Bool) :
    ElasticInferencePool Client × Bool :=
  ({ pool with servers := pool.servers.erase ip, adminClients := pool.adminClients.erase ip },
    (pool.adminClients.get? ip).isNone || closes)

def addServers (toInt : List Char → Option Int) (answers : String → AddAnswers Client) :
    List String → ElasticInferencePool Client → Nat → ElasticInferencePool Client × Option Nat
  | [], pool, added => (pool, some added)
  | ip :: rest, pool, added =>
    match pool.addServer toInt ip (answers ip) with
    | (next, some true) => addServers toInt answers rest next (added + 1)
    | (next, some false) => addServers toInt answers rest next added
    | (next, none) => (next, none)

/-- Remove servers in order. A client that does not close leaves those behind it. -/
def removeServers (closes : String → Bool) :
    List String → ElasticInferencePool Client → Nat →
      ElasticInferencePool Client × Except (List String) Nat
  | [], pool, removed => (pool, .ok removed)
  | ip :: rest, pool, removed =>
    match pool.removeServer ip (closes ip) with
    | (next, true) => removeServers closes rest next (removed + 1)
    | (next, false) => (next, .error rest)

/-- The health pass over the servers listed when it starts. -/
def checkServers (toInt : List Char → Option Int) (answers : String → CheckAnswers) :
    List String → ElasticInferencePool Client → Nat → ElasticInferencePool Client × Option Nat
  | [], pool, removed => (pool, some removed)
  | ip :: rest, pool, removed =>
    match pool.adminClients.get? ip with
    | none => checkServers toInt answers rest pool removed
    | some _ =>
      if pool.checkServerHealth (answers ip).health then
        match pool.servers.get? ip with
        | none => (pool, none)
        | some server =>
          if server.status ≠ .ready then
            checkServers toInt answers rest (pool.syncServerAdapter toInt ip (answers ip).adapter).1
              removed
          else checkServers toInt answers rest pool removed
      else
        match pool.removeServer ip (answers ip).closes with
        | (next, true) => checkServers toInt answers rest next (removed + 1)
        | (next, false) => (next, none)

def sync (toInt : List Char → Option Int) (pool : ElasticInferencePool Client)
    (answers : SyncAnswers Client) : ElasticInferencePool Client × SyncOutcome :=
  match answers.discovered with
  | none => (pool, .lookupRaised)
  | some _ =>
    match addServers toInt answers.add answers.newOrder pool 0 with
    | (added, none) => (added, .raised answers.goneOrder)
    | (added, some count) =>
      match removeServers answers.closes answers.goneOrder added 0 with
      | (kept, .error pending) => (kept, .raised pending)
      | (kept, .ok removed) =>
        match checkServers toInt answers.check kept.servers.keys kept removed with
        | (checked, none) => (checked, .raised [])
        | (checked, some removed) => (checked, .returned count removed)

/-- The servers are synced concurrently. Each call writes its own server only and reads
nothing that another one writes, so every interleaving ends as one after the other. -/
def syncWeights (toInt : List Char → Option Int) (pool : ElasticInferencePool Client)
    (weightsPath : Option Path) (loraName : Option String) (step : Int)
    (answers : String → AdapterAnswers) : ElasticInferencePool Client :=
  let desired : AdapterState :=
    { name := loraName
      path := if loraName.getD "" ≠ "" then weightsPath else none
      step := step }
  pool.servers.keys.foldl
    (fun current ip => (current.syncServerAdapter toInt ip (answers ip)).1)
    { pool with desired := desired }

end ElasticInferencePool

end PrimeRl.Utils.Elastic
