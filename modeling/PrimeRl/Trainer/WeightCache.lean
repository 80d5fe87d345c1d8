import Mathlib.Algebra.Ring.Int.Defs
import Mathlib.Algebra.Ring.Nat
import Mathlib.Data.Finset.Basic
import Mathlib.Data.Finset.Card
import Mathlib.Logic.Function.Basic
import PrimeRl.Support.Machine
import PrimeRl.Support.OrderedDict

/-!
# The cache of converted weights

Calls convert the weights of one source to one format and publish them as a
directory of the source. A first completeness check runs without the lock, and
its reads interleave with what other calls do; everything after it holds the
lock. A call converts into a directory of its own, validates it, moves an
incomplete cache aside and renames its directory to the cache.
-/

namespace PrimeRl.Trainer.Weights

/-! ## Completeness -/

/-- The tensor names of a shard, if it can be opened. -/
abbrev Shard := Option (Finset String)

/-- What the text of an index file reads as. A weight map lists a shard for each tensor name,
which may be something else than a string. -/
inductive IndexFile where
  | unreadable
  | undecodable
  | json (weightMap : Option (List (String × Option String)))
deriving DecidableEq

/-- A directory: its shards in listing order, its index file, and everything else. -/
structure Folder where
  shards : OrderedDict String Shard
  index : Option IndexFile
  others : List (String × List UInt8)
deriving DecidableEq

def Folder.empty : Folder := ⟨.empty, none, []⟩

/-- The tensor names of the shards read so far. -/
abbrev FileKeys := List (String × Finset String)

def safeWeightsName : String := "model.safetensors"

/-- The result of a completeness check, which may also raise. -/
inductive Verdict where
  | complete
  | incomplete
  | raises
deriving DecidableEq, Repr

def Verdict.ofBool (accepted : Bool) : Verdict := if accepted then .complete else .incomplete

def allKeys (fileKeys : FileKeys) : Finset String := (fileKeys.map Prod.snd).foldr (· ∪ ·) ∅

/-- There are keys, the required ones are among them, and no shard repeats one of another. -/
def keysFit (required : Finset String) (fileKeys : FileKeys) : Bool :=
  decide (allKeys fileKeys ≠ ∅ ∧ required ⊆ allKeys fileKeys ∧
    (fileKeys.map (fun file => file.2.card)).sum = (allKeys fileKeys).card)

/-- Without an index the weights are one file of the usual name. -/
def loneShard (fileKeys : FileKeys) : Bool :=
  decide ((fileKeys.map Prod.fst).toFinset = {safeWeightsName})

/-- The weight map has the keys of the shards, each in the shard it is listed for. -/
def weightMapFits (fileKeys : FileKeys) (weightMap : List (String × Option String)) : Bool :=
  decide ((weightMap.map Prod.fst).toFinset = allKeys fileKeys) &&
    weightMap.all (fun entry =>
      entry.2.any (fun shard => decide (entry.1 ∈ (fileKeys.lookup shard).getD ∅)))

/-- What the text of an index says of the shards. -/
def indexVerdict (fileKeys : FileKeys) : IndexFile → Verdict
  | .unreadable => .incomplete
  | .undecodable => .raises
  | .json none => .incomplete
  | .json (some weightMap) => .ofBool (weightMapFits fileKeys weightMap)

/-- The tensor names of all shards; one that cannot be opened ends the reading. -/
def readShards : List (String × Shard) → Option FileKeys
  | [] => some []
  | (_, none) :: _ => none
  | (name, some keys) :: rest => (readShards rest).map ((name, keys) :: ·)

/-- The completeness check of what a path shows, all at one moment. -/
def complete (required : Finset String) (view : Option Folder) : Verdict :=
  match view with
  | none => .incomplete
  | some folder =>
    match readShards folder.shards.entries with
    | none => .incomplete
    | some fileKeys =>
      if ¬ keysFit required fileKeys then .incomplete
      else
        match folder.index with
        | none => .ofBool (loneShard fileKeys)
        | some index => indexVerdict fileKeys index

/-! ## Reads of a check -/

/-- Where a completeness check is: before the listing, opening the shards that are left, before
it looks for an index file, or before it reads the one it found. -/
inductive Check where
  | listing
  | reading (fileKeys : FileKeys) (left : List String)
  | probing (fileKeys : FileKeys)
  | parsing (fileKeys : FileKeys)
deriving DecidableEq

inductive Progress where
  | next (check : Check)
  | verdict (verdict : Verdict)
deriving DecidableEq

/-- The keys are compared when no shard is left. -/
def afterRead (required : Finset String) (fileKeys : FileKeys) (left : List String) : Progress :=
  if left ≠ [] then .next (.reading fileKeys left)
  else if keysFit required fileKeys then .next (.probing fileKeys)
  else .verdict .incomplete

/-- One read of a check, of what the path shows now. -/
def Check.advance (required : Finset String) (view : Option Folder) : Check → Progress
  | .listing => afterRead required [] ((view.map (fun folder => folder.shards.keys)).getD [])
  | .reading fileKeys [] => afterRead required fileKeys []
  | .reading fileKeys (name :: left) =>
      match view.bind (fun folder => folder.shards.get? name) with
      | some (some keys) => afterRead required (fileKeys ++ [(name, keys)]) left
      | _ => .verdict .incomplete
  | .probing fileKeys =>
      match view.bind Folder.index with
      | none => .verdict (.ofBool (loneShard fileKeys))
      | some _ => .next (.parsing fileKeys)
  | .parsing fileKeys =>
      match view.bind Folder.index with
      | none => .verdict .incomplete
      | some index => .verdict (indexVerdict fileKeys index)

/-! ## Calls -/

/-- What the path of the cache is. A link shows the directory it leads to, if any. -/
inductive Entry where
  | absent
  | file (data : List UInt8)
  | folder (folder : Folder)
  | symlink (target : Option Folder)
deriving DecidableEq

/-- What opening files below the path shows. -/
def Entry.view : Entry → Option Folder
  | .folder content => some content
  | .symlink target => target
  | _ => none

/-- Where a call is. Phases from `rechecking` to `cleaning` hold the lock. -/
inductive Phase where
  | checking (check : Check)
  | waiting
  | rechecking (check : Check)
  | guarding
  | converting
  | saving
  | validating
  | moving
  | publishing
  | cleaning
  | returned
  | raised
deriving DecidableEq

/-- What the calls share, and what each of them has of its own. -/
structure Cache (Call : Type) where
  destination : Entry
  lock : Option Call
  phase : Call → Phase
  temporary : Call → Option Folder
  obsolete : Call → Option Entry

/-- What a call can do next. Loading and converting give the keys of the state dict or raise,
and saving writes any files and raises or returns. -/
inductive Action where
  | read
  | acquire
  | prepare
  | convert (keys : Option (Finset String))
  | write (folder : Folder)
  | saved (succeeded : Bool)
  | validate
  | moveAside
  | publish
  | clean
deriving DecidableEq

variable {Call : Type} [DecidableEq Call]

namespace Cache

/-- Every call starts with its first check. -/
def start (destination : Entry) : Cache Call where
  destination := destination
  lock := none
  phase := fun _ => .checking .listing
  temporary := fun _ => none
  obsolete := fun _ => none

def go (cache : Cache Call) (call : Call) (phase : Phase) : Cache Call :=
  { cache with phase := Function.update cache.phase call phase }

def setTemporary (cache : Cache Call) (call : Call) (folder : Option Folder) : Cache Call :=
  { cache with temporary := Function.update cache.temporary call folder }

def setObsolete (cache : Cache Call) (call : Call) (entry : Option Entry) : Cache Call :=
  { cache with obsolete := Function.update cache.obsolete call entry }

def release (cache : Cache Call) : Cache Call := { cache with lock := none }

/-- A failure removes the temporary directory and leaves the lock. -/
def fail (cache : Cache Call) (call : Call) : Cache Call :=
  ((cache.setTemporary call none).release).go call .raised

/-- The first check: a complete cache is returned without the lock. -/
def firstCheck (cache : Cache Call) (call : Call) : Progress → Cache Call
  | .next check => cache.go call (.checking check)
  | .verdict .complete => cache.go call .returned
  | .verdict .incomplete => cache.go call .waiting
  | .verdict .raises => cache.go call .raised

/-- The second check, with the lock. -/
def secondCheck (cache : Cache Call) (call : Call) : Progress → Cache Call
  | .next check => cache.go call (.rechecking check)
  | .verdict .complete => (cache.release).go call .returned
  | .verdict .incomplete => cache.go call .guarding
  | .verdict .raises => (cache.release).go call .raised

/-- Links and files are not replaced. Otherwise a temporary directory is made. -/
def prepare (cache : Cache Call) (call : Call) : Cache Call :=
  match cache.destination with
  | .symlink _ | .file _ => (cache.release).go call .raised
  | .absent | .folder _ => (cache.setTemporary call (some .empty)).go call .converting

/-- An existing cache gets a name of its own. -/
def moveAside (cache : Cache Call) (call : Call) : Cache Call :=
  match cache.destination with
  | .absent => cache.go call .publishing
  | entry => ({ cache with destination := .absent }.setObsolete call (some entry)).go call .publishing

/-- The temporary directory becomes the cache. -/
def publish (cache : Cache Call) (call : Call) (folder : Folder) : Cache Call :=
  ({ cache with destination := .folder folder }.setTemporary call none).go call .cleaning

def step (required : Call → Finset String) (cache : Cache Call) (label : Call × Action) :
    Option (Cache Call) :=
  let (call, action) := label
  match cache.phase call, action with
  | .checking check, .read =>
      some (cache.firstCheck call (check.advance (required call) cache.destination.view))
  | .waiting, .acquire =>
      if cache.lock = none then
        some ({ cache with lock := some call }.go call (.rechecking .listing))
      else none
  | .rechecking check, .read =>
      some (cache.secondCheck call (check.advance (required call) cache.destination.view))
  | .guarding, .prepare => some (cache.prepare call)
  | .converting, .convert keys =>
      -- keys that the model requires may be missing
      if keys.any (fun keys => decide (required call ⊆ keys)) then some (cache.go call .saving)
      else some (cache.fail call)
  | .saving, .write folder => some (cache.setTemporary call (some folder))
  | .saving, .saved succeeded =>
      if succeeded then some (cache.go call .validating) else some (cache.fail call)
  | .validating, .validate =>
      if complete (required call) (cache.temporary call) = .complete then
        some (cache.go call .moving)
      else some (cache.fail call)
  | .moving, .moveAside => some (cache.moveAside call)
  | .publishing, .publish => (cache.temporary call).map (cache.publish call)
  | .cleaning, .clean => some (((cache.setObsolete call none).release).go call .returned)
  | _, _ => none

end Cache

end PrimeRl.Trainer.Weights
