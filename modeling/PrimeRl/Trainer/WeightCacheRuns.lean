import Mathlib.Data.Fintype.Basic
import PrimeRl.Trainer.WeightCache

/-!
# Published caches are complete

A check whose reads all see the same directory gives the verdict of the check at
one moment. The second check holds the lock, so its reads always do. The first
one does not, and its reads agree as long as no cache is moved aside between
them. Then every call that returns leaves a complete cache, a complete cache is
never replaced, and a call that raises leaves no trace.
-/

namespace PrimeRl.Trainer.Weights

/-! ## Checks that see one directory -/

section Checks
variable (required : Finset String) (view : Option Folder)

def indexCheck (fileKeys : FileKeys) : Verdict :=
  match view.bind Folder.index with
  | none => .ofBool (loneShard fileKeys)
  | some index => indexVerdict fileKeys index

def keysVerdict (fileKeys : FileKeys) : Verdict :=
  if keysFit required fileKeys then indexCheck view fileKeys else .incomplete

def restVerdict : FileKeys → List String → Verdict
  | fileKeys, [] => keysVerdict required view fileKeys
  | fileKeys, name :: left =>
      match view.bind (fun folder => folder.shards.get? name) with
      | some (some keys) => restVerdict (fileKeys ++ [(name, keys)]) left
      | _ => .incomplete

/-- The verdict that a check comes to when the path keeps showing the same. -/
def verdictFrom : Check → Verdict
  | .listing => restVerdict required view [] ((view.map (fun folder => folder.shards.keys)).getD [])
  | .reading fileKeys left => restVerdict required view fileKeys left
  | .probing fileKeys => indexCheck view fileKeys
  | .parsing fileKeys =>
      match view.bind Folder.index with
      | none => .incomplete
      | some index => indexVerdict fileKeys index

/-- What a progress comes to. -/
def Progress.outcome : Progress → Verdict
  | .next check => verdictFrom required view check
  | .verdict reached => reached

theorem after_read_outcome (fileKeys : FileKeys) (left : List String) :
    (afterRead required fileKeys left).outcome required view =
      restVerdict required view fileKeys left := by
  cases left with
  | cons name left => rfl
  | nil =>
    rw [afterRead, if_neg (not_not_intro rfl), restVerdict, keysVerdict]
    split
    · rfl
    · rfl

/-- A read does not change what a check comes to. -/
theorem advance_outcome (check : Check) :
    (check.advance required view).outcome required view = verdictFrom required view check := by
  cases check with
  | listing => exact after_read_outcome required view [] _
  | reading fileKeys left =>
    cases left with
    | nil => exact after_read_outcome required view fileKeys []
    | cons name left =>
      rw [Check.advance, verdictFrom, restVerdict]
      rcases view.bind (fun folder => folder.shards.get? name) with _ | _ | keys
      · rfl
      · rfl
      · exact after_read_outcome required view _ left
  | probing fileKeys =>
    rw [Check.advance, verdictFrom, indexCheck]
    cases found : view.bind Folder.index with
    | none => rfl
    | some index =>
      rw [Progress.outcome, verdictFrom, found]
  | parsing fileKeys =>
    rw [Check.advance, verdictFrom]
    cases view.bind Folder.index with
    | none => rfl
    | some index => rfl

end Checks

/-- Reading listed shards one by one reads them all. -/
theorem rest_verdict_eq (required : Finset String) (folder : Folder) (rest : List (String × Shard))
    (fileKeys : FileKeys) (listed : ∀ entry ∈ rest, entry ∈ folder.shards.entries) :
    restVerdict required (some folder) fileKeys (rest.map Prod.fst) =
      match readShards rest with
      | none => .incomplete
      | some more => keysVerdict required (some folder) (fileKeys ++ more) := by
  induction rest generalizing fileKeys with
  | nil =>
    rw [List.map_nil, restVerdict, readShards]
    dsimp only
    rw [List.append_nil]
  | cons entry rest inductionHypothesis =>
    obtain ⟨name, shard⟩ := entry
    have found : folder.shards.get? name = some shard :=
      (folder.shards.get?_eq_some_iff name shard).mpr (listed _ List.mem_cons_self)
    rw [List.map_cons, restVerdict, Option.bind_some, found]
    cases shard with
    | none => rfl
    | some keys =>
      dsimp only
      rw [inductionHypothesis _ (fun other member => listed other (List.mem_cons_of_mem _ member)),
        readShards]
      cases readShards rest with
      | none => rfl
      | some more =>
        rw [Option.map_some]
        dsimp only
        rw [List.append_assoc, List.singleton_append]

/-- A check that sees one directory gives the verdict of the check at one moment. -/
theorem listing_verdict (required : Finset String) (view : Option Folder) :
    verdictFrom required view .listing = complete required view := by
  cases view with
  | none =>
    have nothing : keysFit required [] = false := rfl
    rw [verdictFrom, complete, Option.map_none, Option.getD_none, restVerdict, keysVerdict, nothing,
      if_neg Bool.false_ne_true]
  | some folder =>
    rw [verdictFrom, complete, Option.map_some, Option.getD_some, OrderedDict.keys,
      rest_verdict_eq required folder _ [] (fun _ member => member)]
    cases readShards folder.shards.entries with
    | none => rfl
    | some fileKeys =>
      dsimp only
      rw [List.nil_append, keysVerdict, ite_not, indexCheck]
      rfl

/-! ## Transitions -/

variable {Call : Type} [DecidableEq Call] (required : Call → Finset String)

/-- The cache that a path shows is complete for a call. -/
def CompleteFor (cache : Cache Call) (call : Call) : Prop :=
  complete (required call) cache.destination.view = .complete

/-- What a call can do. -/
inductive Transition (cache : Cache Call) (call : Call) : Action → Cache Call → Prop
  | firstNext (check later : Check) (here : cache.phase call = .checking check)
      (advanced : check.advance (required call) cache.destination.view = .next later) :
      Transition cache call .read (cache.go call (.checking later))
  | firstDone (check : Check) (verdict : Verdict) (phase : Phase)
      (here : cache.phase call = .checking check)
      (advanced : check.advance (required call) cache.destination.view = .verdict verdict)
      (ends : verdict = .complete ∧ phase = .returned ∨ phase = .waiting ∨ phase = .raised) :
      Transition cache call .read (cache.go call phase)
  | acquired (here : cache.phase call = .waiting) (free : cache.lock = none) :
      Transition cache call .acquire
        ({ cache with lock := some call }.go call (.rechecking .listing))
  | secondNext (check later : Check) (here : cache.phase call = .rechecking check)
      (advanced : check.advance (required call) cache.destination.view = .next later) :
      Transition cache call .read (cache.go call (.rechecking later))
  | secondDone (check : Check) (verdict : Verdict) (phase : Phase)
      (here : cache.phase call = .rechecking check)
      (advanced : check.advance (required call) cache.destination.view = .verdict verdict)
      (ends : verdict = .complete ∧ phase = .returned ∨ phase = .raised) :
      Transition cache call .read ((cache.release).go call phase)
  | secondRefused (check : Check) (here : cache.phase call = .rechecking check)
      (advanced : check.advance (required call) cache.destination.view = .verdict .incomplete) :
      Transition cache call .read (cache.go call .guarding)
  | refused (here : cache.phase call = .guarding) :
      Transition cache call .prepare ((cache.release).go call .raised)
  | prepared (here : cache.phase call = .guarding) :
      Transition cache call .prepare
        ((cache.setTemporary call (some .empty)).go call .converting)
  | converted (keys : Option (Finset String)) (here : cache.phase call = .converting) :
      Transition cache call (.convert keys) (cache.go call .saving)
  | failed (action : Action) (here : cache.phase call ∈ [.converting, .saving, .validating])
      (named : (∃ keys, action = .convert keys) → cache.phase call = .converting)
      (stays : action ≠ .moveAside ∧ action ≠ .publish) :
      Transition cache call action (cache.fail call)
  | wrote (folder : Folder) (here : cache.phase call = .saving) :
      Transition cache call (.write folder) (cache.setTemporary call (some folder))
  | saved (here : cache.phase call = .saving) :
      Transition cache call (.saved true) (cache.go call .validating)
  | validated (here : cache.phase call = .validating)
      (whole : complete (required call) (cache.temporary call) = .complete) :
      Transition cache call .validate (cache.go call .moving)
  | nothingAside (here : cache.phase call = .moving) (absent : cache.destination = .absent) :
      Transition cache call .moveAside (cache.go call .publishing)
  | movedAside (here : cache.phase call = .moving) (present : cache.destination ≠ .absent) :
      Transition cache call .moveAside
        (({ cache with destination := .absent }.setObsolete call (some cache.destination)).go call
          .publishing)
  | published (folder : Folder) (here : cache.phase call = .publishing)
      (drafted : cache.temporary call = some folder) :
      Transition cache call .publish (cache.publish call folder)
  | cleaned (here : cache.phase call = .cleaning) :
      Transition cache call .clean (((cache.setObsolete call none).release).go call .returned)

/-- Every step is one of the transitions. -/
theorem step_transition {cache next : Cache Call} {call : Call} {action : Action}
    (taken : Cache.step required cache (call, action) = some next) :
    Transition required cache call action next := by
  unfold Cache.step at taken
  dsimp only at taken
  split at taken
  case h_1 check here =>
    obtain rfl := Option.some.inj taken
    cases advanced : check.advance (required call) cache.destination.view with
    | next later => exact .firstNext check later here advanced
    | verdict verdict =>
      cases verdict with
      | complete => exact .firstDone check _ .returned here advanced (.inl ⟨rfl, rfl⟩)
      | incomplete => exact .firstDone check _ .waiting here advanced (.inr (.inl rfl))
      | raises => exact .firstDone check _ .raised here advanced (.inr (.inr rfl))
  case h_2 here =>
    obtain ⟨free, same⟩ := Option.ite_none_right_eq_some.mp taken
    obtain rfl := Option.some.inj same
    exact .acquired here free
  case h_3 check here =>
    obtain rfl := Option.some.inj taken
    cases advanced : check.advance (required call) cache.destination.view with
    | next later => exact .secondNext check later here advanced
    | verdict verdict =>
      cases verdict with
      | complete => exact .secondDone check _ .returned here advanced (.inl ⟨rfl, rfl⟩)
      | incomplete => exact .secondRefused check here advanced
      | raises => exact .secondDone check _ .raised here advanced (.inr rfl)
  case h_4 here =>
    obtain rfl := Option.some.inj taken
    rw [Cache.prepare]
    cases cache.destination with
    | absent => exact .prepared here
    | file data => exact .refused here
    | folder content => exact .prepared here
    | symlink target => exact .refused here
  case h_5 keys here =>
    split at taken
    · obtain rfl := Option.some.inj taken
      exact .converted keys here
    · obtain rfl := Option.some.inj taken
      exact .failed _ (by rw [here]; decide) (fun _ => here) ⟨nofun, nofun⟩
  case h_6 folder here =>
    obtain rfl := Option.some.inj taken
    exact .wrote folder here
  case h_7 succeeded here =>
    cases succeeded with
    | true =>
      obtain rfl := Option.some.inj taken
      exact .saved here
    | false =>
      obtain rfl := Option.some.inj taken
      exact .failed _ (by rw [here]; decide) (fun named => nomatch named) ⟨nofun, nofun⟩
  case h_8 here =>
    split at taken
    · rename_i whole
      obtain rfl := Option.some.inj taken
      exact .validated here whole
    · obtain rfl := Option.some.inj taken
      exact .failed _ (by rw [here]; decide) (fun named => nomatch named) ⟨nofun, nofun⟩
  case h_9 here =>
    obtain rfl := Option.some.inj taken
    rw [Cache.moveAside]
    split
    · rename_i absent
      exact .nothingAside here absent
    · rename_i present
      exact .movedAside here present
  case h_10 here =>
    obtain ⟨folder, drafted, rfl⟩ := Option.map_eq_some_iff.mp taken
    exact .published folder here drafted
  case h_11 here =>
    obtain rfl := Option.some.inj taken
    exact .cleaned here
  case h_12 => cases taken

/-! ## What holds of each call -/

/-- A call that does not hold the lock has nothing of its own. -/
def Idle (cache : Cache Call) (call : Call) : Prop :=
  cache.lock ≠ some call ∧ cache.temporary call = none ∧ cache.obsolete call = none

/-- The reads of a check so far agree with what the path shows. -/
def Agrees (cache : Cache Call) (call : Call) (check : Check) : Prop :=
  verdictFrom (required call) cache.destination.view check =
    complete (required call) cache.destination.view

/-- What holds of a call in each phase. -/
def Fits (cache : Cache Call) (call : Call) : Phase → Prop
  | .checking check =>
      Idle cache call ∧ Agrees required cache call check ∧
        (cache.destination.view = none → check = .listing)
  | .waiting | .returned | .raised => Idle cache call
  | .rechecking check =>
      cache.lock = some call ∧ cache.temporary call = none ∧ cache.obsolete call = none ∧
        Agrees required cache call check
  | .guarding =>
      cache.lock = some call ∧ cache.temporary call = none ∧ cache.obsolete call = none ∧
        ¬ CompleteFor required cache call
  | .converting | .saving | .validating =>
      cache.lock = some call ∧ cache.obsolete call = none ∧ ¬ CompleteFor required cache call
  | .moving =>
      cache.lock = some call ∧ cache.obsolete call = none ∧ ¬ CompleteFor required cache call ∧
        complete (required call) (cache.temporary call) = .complete
  | .publishing =>
      cache.lock = some call ∧ cache.destination = .absent ∧
        complete (required call) (cache.temporary call) = .complete
  | .cleaning =>
      cache.lock = some call ∧ cache.temporary call = none ∧ CompleteFor required cache call

/-- A first check between its listing and its last read. -/
def Phase.midCheck : Phase → Bool
  | .checking .listing => false
  | .checking _ => true
  | _ => false

/-- No first check is between its listing and its last read when a cache is moved aside. -/
def Undisturbed (cache : Cache Call) (label : Call × Action) : Prop :=
  label.2 = .moveAside → ∀ other, (cache.phase other).midCheck = false

instance [Fintype Call] (cache : Cache Call) (label : Call × Action) :
    Decidable (Undisturbed cache label) :=
  inferInstanceAs (Decidable (label.2 = .moveAside → ∀ other, (cache.phase other).midCheck = false))

theorem listing_of_resting {check : Check} (resting : (Phase.checking check).midCheck = false) :
    check = .listing := by
  cases check with
  | listing => rfl
  | reading | probing | parsing => cases resting

theorem go_phase_self (cache : Cache Call) (call : Call) (phase : Phase) :
    (cache.go call phase).phase call = phase := by
  simp [Cache.go]

theorem go_phase_other (cache : Cache Call) {call other : Call} {phase : Phase}
    (different : other ≠ call) : (cache.go call phase).phase other = cache.phase other := by
  simp [Cache.go, different]

variable {required} {cache changed : Cache Call} {call other : Call} {phase : Phase}

omit [DecidableEq Call] in
/-- What holds of a call only depends on the cache, the lock and what is its own. -/
theorem fits_frame (lock : changed.lock = some other ↔ cache.lock = some other)
    (temporary : changed.temporary other = cache.temporary other)
    (obsolete : changed.obsolete other = cache.obsolete other)
    (destination : changed.destination = cache.destination)
    (fits : Fits required cache other phase) : Fits required changed other phase := by
  cases phase <;>
    simpa only [Fits, Idle, Agrees, CompleteFor, ne_eq, lock, temporary, obsolete, destination]
      using fits

omit [DecidableEq Call] in
/-- A call without the lock whose check has not begun does not depend on the cache. -/
theorem fits_moved (free : cache.lock ≠ some other) (still : changed.lock ≠ some other)
    (temporary : changed.temporary other = cache.temporary other)
    (obsolete : changed.obsolete other = cache.obsolete other)
    (listing : ∀ check, phase = .checking check → check = .listing)
    (fits : Fits required cache other phase) : Fits required changed other phase := by
  cases phase with
  | checking check =>
    obtain ⟨⟨-, noTemporary, noObsolete⟩, -⟩ := fits
    obtain rfl := listing check rfl
    exact ⟨⟨still, temporary.trans noTemporary, obsolete.trans noObsolete⟩,
      listing_verdict (required other) changed.destination.view, fun _ => rfl⟩
  | waiting | returned | raised =>
    obtain ⟨-, noTemporary, noObsolete⟩ := fits
    exact ⟨still, temporary.trans noTemporary, obsolete.trans noObsolete⟩
  | rechecking | guarding | converting | saving | validating | moving | publishing | cleaning =>
    exact absurd fits.1 free

/-- Where one call takes a step that leaves the cache, what holds of the others stays. -/
theorem fits_update (changed : Cache Call) (fits : ∀ other, Fits required cache other (cache.phase other))
    (phases : changed.phase = cache.phase)
    (lock : ∀ other, other ≠ call → (changed.lock = some other ↔ cache.lock = some other))
    (temporary : ∀ other, other ≠ call → changed.temporary other = cache.temporary other)
    (obsolete : ∀ other, other ≠ call → changed.obsolete other = cache.obsolete other)
    (destination : changed.destination = cache.destination)
    (own : Fits required changed call phase) :
    ∀ other, Fits required (changed.go call phase) other ((changed.go call phase).phase other) := by
  intro other
  by_cases same : other = call
  · subst same
    rw [go_phase_self]
    cases phase <;> exact own
  · have unchanged : (changed.go call phase).phase other = cache.phase other := by
      rw [go_phase_other changed same, phases]
    rw [unchanged]
    exact fits_frame (lock other same) (temporary other same) (obsolete other same) destination
      (fits other)

/-- Where the call with the lock changes the cache, no other call depended on it. -/
theorem fits_replaced (changed : Cache Call) (fits : ∀ other, Fits required cache other (cache.phase other))
    (phases : changed.phase = cache.phase) (held : cache.lock = some call)
    (still : changed.lock = some call)
    (temporary : ∀ other, other ≠ call → changed.temporary other = cache.temporary other)
    (obsolete : ∀ other, other ≠ call → changed.obsolete other = cache.obsolete other)
    (listing : ∀ other check, cache.phase other = .checking check → check = .listing)
    (own : Fits required changed call phase) :
    ∀ other, Fits required (changed.go call phase) other ((changed.go call phase).phase other) := by
  intro other
  by_cases same : other = call
  · subst same
    rw [go_phase_self]
    cases phase <;> exact own
  · have unchanged : (changed.go call phase).phase other = cache.phase other := by
      rw [go_phase_other changed same, phases]
    have different : some call ≠ some other := fun equal => same (Option.some.inj equal).symm
    rw [unchanged]
    exact fits_moved (fun isOther => different (held.symm.trans isOther))
      (fun isOther => different (still.symm.trans isOther)) (temporary other same)
      (obsolete other same) (listing other) (fits other)

omit [DecidableEq Call] in
/-- Releasing the lock does not take it from another call. -/
theorem released_others (held : cache.lock = some call) (other : Call) (different : other ≠ call) :
    (none : Option Call) = some other ↔ cache.lock = some other := by
  rw [held]
  exact iff_of_false nofun (fun equal => different (Option.some.inj equal).symm)

omit [DecidableEq Call] in
/-- A call that can fail holds the lock and has moved nothing aside. -/
theorem failing_fits (fits : Fits required cache call (cache.phase call))
    (here : cache.phase call ∈ [Phase.converting, .saving, .validating]) :
    cache.lock = some call ∧ cache.obsolete call = none ∧ ¬ CompleteFor required cache call := by
  rcases List.mem_cons.mp here with isPhase | here
  · rw [isPhase] at fits
    exact fits
  · rcases List.mem_cons.mp here with isPhase | here
    · rw [isPhase] at fits
      exact fits
    · rw [List.mem_singleton.mp here] at fits
      exact fits

/-- Each transition keeps what holds of the calls, as long as no cache is moved aside under
a first check. -/
theorem fits_step {action : Action} {next : Cache Call}
    (fits : ∀ other, Fits required cache other (cache.phase other))
    (undisturbed : Undisturbed cache (call, action))
    (moves : Transition required cache call action next) :
    ∀ other, Fits required next other (next.phase other) := by
  have own := fits call
  cases moves with
  | firstNext check later here advanced =>
    rw [here] at own
    obtain ⟨idle, agrees, absent⟩ := own
    have outcome := advance_outcome (required call) cache.destination.view check
    rw [advanced] at outcome
    refine fits_update cache fits rfl (fun _ _ => Iff.rfl) (fun _ _ => rfl) (fun _ _ => rfl) rfl
      ⟨idle, outcome.trans agrees, ?_⟩
    intro none
    obtain rfl := absent none
    rw [none] at advanced
    cases advanced
  | firstDone check verdict phase here advanced ends =>
    rw [here] at own
    obtain ⟨idle, -⟩ := own
    refine fits_update cache fits rfl (fun _ _ => Iff.rfl) (fun _ _ => rfl) (fun _ _ => rfl) rfl ?_
    rcases ends with ⟨-, rfl⟩ | rfl | rfl <;> exact idle
  | acquired here free =>
    rw [here] at own
    obtain ⟨-, noTemporary, noObsolete⟩ := own
    refine fits_update ({ cache with lock := some call }) fits rfl ?_ (fun _ _ => rfl)
      (fun _ _ => rfl) rfl
      ⟨rfl, noTemporary, noObsolete, listing_verdict (required call) cache.destination.view⟩
    intro other different
    rw [free]
    exact iff_of_false (fun equal => different (Option.some.inj equal).symm) nofun
  | secondNext check later here advanced =>
    rw [here] at own
    obtain ⟨held, noTemporary, noObsolete, agrees⟩ := own
    have outcome := advance_outcome (required call) cache.destination.view check
    rw [advanced] at outcome
    exact fits_update cache fits rfl (fun _ _ => Iff.rfl) (fun _ _ => rfl) (fun _ _ => rfl) rfl
      ⟨held, noTemporary, noObsolete, outcome.trans agrees⟩
  | secondDone check verdict phase here advanced ends =>
    rw [here] at own
    obtain ⟨held, noTemporary, noObsolete, -⟩ := own
    refine fits_update (cache.release) fits rfl (released_others held) (fun _ _ => rfl)
      (fun _ _ => rfl) rfl ?_
    rcases ends with ⟨-, rfl⟩ | rfl <;> exact ⟨nofun, noTemporary, noObsolete⟩
  | secondRefused check here advanced =>
    rw [here] at own
    obtain ⟨held, noTemporary, noObsolete, agrees⟩ := own
    have outcome := advance_outcome (required call) cache.destination.view check
    rw [advanced] at outcome
    refine fits_update cache fits rfl (fun _ _ => Iff.rfl) (fun _ _ => rfl) (fun _ _ => rfl) rfl
      ⟨held, noTemporary, noObsolete, ?_⟩
    intro whole
    exact nomatch (outcome.trans agrees).trans whole
  | refused here =>
    rw [here] at own
    obtain ⟨held, noTemporary, noObsolete, -⟩ := own
    exact fits_update (cache.release) fits rfl (released_others held) (fun _ _ => rfl)
      (fun _ _ => rfl) rfl ⟨nofun, noTemporary, noObsolete⟩
  | prepared here =>
    rw [here] at own
    obtain ⟨held, -, noObsolete, broken⟩ := own
    exact fits_update (cache.setTemporary call (some .empty)) fits rfl
      (fun _ _ => Iff.rfl) (fun _ different => Function.update_of_ne different _ _) (fun _ _ => rfl)
      rfl ⟨held, noObsolete, broken⟩
  | converted keys here =>
    rw [here] at own
    exact fits_update cache fits rfl (fun _ _ => Iff.rfl) (fun _ _ => rfl) (fun _ _ => rfl) rfl own
  | failed action here named stays =>
    obtain ⟨held, noObsolete, -⟩ := failing_fits own here
    exact fits_update ((cache.setTemporary call none).release) fits rfl
      (released_others held) (fun _ different => Function.update_of_ne different _ _)
      (fun _ _ => rfl) rfl ⟨nofun, Function.update_self _ _ _, noObsolete⟩
  | wrote folder here =>
    have stays : cache.setTemporary call (some folder) =
        (cache.setTemporary call (some folder)).go call .saving := by
      rw [Cache.go, ← here]
      exact congrArg (fun phases => { cache.setTemporary call (some folder) with phase := phases })
        (Function.update_eq_self call cache.phase).symm
    rw [here] at own
    rw [stays]
    exact fits_update (cache.setTemporary call (some folder)) fits rfl
      (fun _ _ => Iff.rfl) (fun _ different => Function.update_of_ne different _ _) (fun _ _ => rfl)
      rfl own
  | saved here =>
    rw [here] at own
    exact fits_update cache fits rfl (fun _ _ => Iff.rfl) (fun _ _ => rfl) (fun _ _ => rfl) rfl own
  | validated here whole =>
    rw [here] at own
    obtain ⟨held, noObsolete, broken⟩ := own
    exact fits_update cache fits rfl (fun _ _ => Iff.rfl) (fun _ _ => rfl) (fun _ _ => rfl) rfl
      ⟨held, noObsolete, broken, whole⟩
  | nothingAside here absent =>
    rw [here] at own
    obtain ⟨held, -, -, whole⟩ := own
    exact fits_update cache fits rfl (fun _ _ => Iff.rfl) (fun _ _ => rfl) (fun _ _ => rfl) rfl
      ⟨held, absent, whole⟩
  | movedAside here present =>
    rw [here] at own
    obtain ⟨held, -, -, whole⟩ := own
    have ready : Fits required
        ({ cache with destination := .absent }.setObsolete call (some cache.destination)) call
        .publishing := ⟨held, rfl, whole⟩
    exact fits_replaced _ fits rfl held held (fun _ _ => rfl)
      (fun _ different => Function.update_of_ne different _ _)
      (fun other _ checking => listing_of_resting (checking ▸ undisturbed rfl other)) ready
  | published folder here drafted =>
    rw [here] at own
    obtain ⟨held, absent, whole⟩ := own
    rw [drafted] at whole
    have ready : Fits required
        ({ cache with destination := .folder folder }.setTemporary call none) call .cleaning :=
      ⟨held, Function.update_self _ _ _, whole⟩
    refine fits_replaced _ fits rfl held held
      (fun _ different => Function.update_of_ne different _ _) (fun _ _ => rfl) ?_ ready
    intro other check checking
    have others := fits other
    rw [checking] at others
    exact others.2.2 (congrArg Entry.view absent)
  | cleaned here =>
    rw [here] at own
    obtain ⟨held, noTemporary, -⟩ := own
    exact fits_update ((cache.setObsolete call none).release) fits rfl
      (released_others held) (fun _ _ => rfl)
      (fun _ different => Function.update_of_ne different _ _) rfl
      ⟨nofun, noTemporary, Function.update_self _ _ _⟩

/-! ## Runs -/

/-- What a step must not do: return an incomplete cache, replace a complete one, or convert
again where it is complete. -/
structure StepSound (required : Call → Finset String) (cache : Cache Call) (label : Call × Action)
    (next : Cache Call) : Prop where
  returns : next.phase label.1 = .returned → CompleteFor required next label.1
  replaces : next.destination ≠ cache.destination → ¬ CompleteFor required cache label.1
  converts : ∀ keys, label.2 = .convert keys → ¬ CompleteFor required cache label.1

/-- The cache is what it was at the start, or gone, or a directory that was validated. -/
def Whole (required : Call → Finset String) (initial entry : Entry) : Prop :=
  entry = initial ∨ entry = .absent ∨
    ∃ call folder, entry = .folder folder ∧ complete (required call) (some folder) = .complete

omit [DecidableEq Call] in
theorem start_fits (required : Call → Finset String) (destination : Entry) (call : Call) :
    Fits required (Cache.start destination) call ((Cache.start destination).phase call) :=
  ⟨⟨nofun, rfl, rfl⟩, listing_verdict (required call) destination.view, fun _ => rfl⟩

omit [DecidableEq Call] in
theorem absent_incomplete (absent : cache.destination = .absent) :
    ¬ CompleteFor required cache call := by
  intro whole
  rw [CompleteFor, absent] at whole
  exact nomatch whole

/-- Only moving aside and publishing change the cache. -/
theorem destination_changed {action : Action} {next : Cache Call}
    (moves : Transition required cache call action next)
    (changes : next.destination ≠ cache.destination) :
    (cache.phase call = .moving ∧ next.destination = .absent ∧ next.phase call = .publishing) ∨
      (cache.phase call = .publishing ∧ next.phase call = .cleaning ∧
        ∃ folder, cache.temporary call = some folder ∧ next.destination = .folder folder) := by
  cases moves with
  | movedAside here present => exact .inl ⟨here, rfl, go_phase_self _ _ _⟩
  | published folder here drafted =>
    exact .inr ⟨here, go_phase_self _ _ _, folder, drafted, rfl⟩
  | _ => exact absurd rfl changes

/-- A call only comes to return with a verdict or after it published. -/
theorem transition_returned {action : Action} {next : Cache Call}
    (fits : Fits required cache call (cache.phase call))
    (moves : Transition required cache call action next) (returns : next.phase call = .returned) :
    CompleteFor required next call := by
  cases moves with
  | firstDone check verdict phase here advanced ends =>
    rw [go_phase_self] at returns
    rw [here] at fits
    have outcome := advance_outcome (required call) cache.destination.view check
    rw [advanced] at outcome
    rcases ends with ⟨rfl, -⟩ | rfl | rfl
    · exact (outcome.trans fits.2.1).symm
    · cases returns
    · cases returns
  | secondDone check verdict phase here advanced ends =>
    rw [go_phase_self] at returns
    rw [here] at fits
    have outcome := advance_outcome (required call) cache.destination.view check
    rw [advanced] at outcome
    rcases ends with ⟨rfl, -⟩ | rfl
    · exact (outcome.trans fits.2.2.2).symm
    · cases returns
  | cleaned here =>
    rw [here] at fits
    exact fits.2.2
  | wrote folder here => exact nomatch here.symm.trans returns
  | _ => exact nomatch (go_phase_self _ _ _).symm.trans returns

theorem step_sound {action : Action} {next : Cache Call}
    (fits : ∀ other, Fits required cache other (cache.phase other))
    (moves : Transition required cache call action next) :
    StepSound required cache (call, action) next where
  returns := transition_returned (fits call) moves
  replaces := by
    intro changes
    have own := fits call
    rcases destination_changed moves changes with ⟨here, -⟩ | ⟨here, -⟩
    · rw [here] at own
      exact own.2.2.1
    · rw [here] at own
      exact absent_incomplete own.2.1
  converts := by
    rintro keys same
    have own := fits call
    obtain rfl : action = .convert keys := same
    cases moves with
    | converted _ here =>
      rw [here] at own
      exact own.2.2
    | failed _ here _ _ => exact (failing_fits own here).2.2

/-- The cache is never seen while it is written. -/
theorem step_whole {action : Action} {next : Cache Call} (initial : Entry)
    (fits : Fits required cache call (cache.phase call))
    (moves : Transition required cache call action next)
    (whole : Whole required initial cache.destination) :
    Whole required initial next.destination := by
  by_cases same : next.destination = cache.destination
  · rw [same]
    exact whole
  · rcases destination_changed moves same with ⟨-, absent, -⟩ | ⟨here, -, folder, drafted, isFolder⟩
    · exact .inr (.inl absent)
    · rw [here] at fits
      exact .inr (.inr ⟨call, folder, isFolder, drafted ▸ fits.2.2⟩)

/-- A call that changed the cache does not raise any more. -/
def Settled : Phase → Prop
  | .publishing | .cleaning | .returned => True
  | _ => False

theorem step_settled {action : Action} {next : Cache Call} (watched : Call)
    (moves : Transition required cache call action next) (settled : Settled (cache.phase watched)) :
    Settled (next.phase watched) := by
  by_cases same : watched = call
  · subst same
    cases moves with
    | published =>
      rw [Cache.publish, go_phase_self]
      trivial
    | cleaned =>
      rw [go_phase_self]
      trivial
    | failed _ here =>
      rcases List.mem_cons.mp here with isPhase | here
      · exact absurd settled (isPhase ▸ id)
      · rcases List.mem_cons.mp here with isPhase | here
        · exact absurd settled (isPhase ▸ id)
        · exact absurd settled (List.mem_singleton.mp here ▸ id)
    | _ => simp_all [Settled]
  · have unchanged : next.phase watched = cache.phase watched := by
      cases moves with
      | wrote => rfl
      | _ => exact go_phase_other _ same
    rw [unchanged]
    exact settled

/-- Converted weight caches are published atomically. In every run in which no cache is moved
aside under a first check, a call that returns leaves a cache that is complete for it, a complete
cache is neither replaced nor converted again, what is seen as the cache is always the one
at the start, none, or a validated one, and a call that raises has left the cache alone and
left nothing behind. -/
theorem cache_published_atomically (required : Call → Finset String) (destination : Entry)
    (labels : List (Call × Action)) (final : Cache Call)
    (ran : Machine.run (Cache.step required) (Cache.start destination) labels = some final)
    (undisturbed : Machine.Along (Cache.step required) Undisturbed (Cache.start destination) labels) :
    Machine.Along (Cache.step required)
        (fun cache label => ∀ next, Cache.step required cache label = some next →
          StepSound required cache label next)
        (Cache.start destination) labels ∧
      Whole required destination final.destination ∧
      ∀ call, final.phase call = .raised →
        final.temporary call = none ∧ final.obsolete call = none ∧
        ∀ before action after middle next, labels = before ++ (call, action) :: after →
          Machine.run (Cache.step required) (Cache.start destination) before = some middle →
          Cache.step required middle (call, action) = some next →
          next.destination = middle.destination := by
  have initially := start_fits required destination
  have preserves (cache : Cache Call) (label : Call × Action) (next : Cache Call)
      (fits : ∀ other, Fits required cache other (cache.phase other))
      (resting : Undisturbed cache label) (taken : Cache.step required cache label = some next) :
      ∀ other, Fits required next other (next.phase other) :=
    fits_step fits resting (step_transition required taken)
  have fits := Machine.run_invariant_along
    (fun cache : Cache Call => ∀ other, Fits required cache other (cache.phase other))
    preserves initially undisturbed ran
  refine ⟨?_, ?_, ?_⟩
  · exact Machine.along_of_invariant
      (fun cache : Cache Call => ∀ other, Fits required cache other (cache.phase other))
      (fun cache label fits _ next taken => step_sound fits (step_transition required taken))
      preserves labels initially undisturbed
  · have both := Machine.run_invariant_along
      (fun cache : Cache Call => (∀ other, Fits required cache other (cache.phase other)) ∧
        Whole required destination cache.destination)
      (fun cache label next holds resting taken =>
        ⟨preserves cache label next holds.1 resting taken,
          step_whole destination (holds.1 label.1) (step_transition required taken) holds.2⟩)
      ⟨initially, .inl rfl⟩ undisturbed ran
    exact both.2
  · intro call raised
    have idle := fits call
    rw [raised] at idle
    refine ⟨idle.2.1, idle.2.2, ?_⟩
    intro before action after middle next split reached taken
    by_contra changes
    have settled : Settled (next.phase call) := by
      rcases destination_changed (step_transition required taken) changes with
        ⟨-, -, here⟩ | ⟨-, here, -⟩ <;> exact here ▸ trivial
    rw [split] at ran
    obtain ⟨again, reached', rest⟩ := (Machine.run_append_iff _ _ _ _ _).mp ran
    obtain rfl := Option.some.inj (reached.symm.trans reached')
    obtain ⟨following, taken', remaining⟩ := (Machine.run_cons_iff _ _ _ _ _).mp rest
    obtain rfl := Option.some.inj (taken.symm.trans taken')
    have last := Machine.run_invariant (fun cache : Cache Call => Settled (cache.phase call))
      (fun cache label next settled taken =>
        step_settled call (step_transition required taken) settled) settled remaining
    rw [raised] at last
    exact last

/-! ## Two calls -/

/-- One file of the usual name with one tensor. -/
def oneShard : OrderedDict String Shard := ⟨[(safeWeightsName, some {"w"})], by decide⟩

/-- A directory with a shard and an index without a weight map, as an interrupted write leaves it. -/
def interrupted : Folder := ⟨oneShard, some (.json none), []⟩

def converted : Folder := ⟨oneShard, none, []⟩

/-- The first check of a call that rejects the interrupted directory, and its second check. -/
def rejects (call : Bool) : List (Bool × Action) :=
  [(call, .read), (call, .read), (call, .read), (call, .read)]

/-- Everything a call does between the lock and moving the old directory aside. -/
def rebuilds (call : Bool) : List (Bool × Action) :=
  (call, .acquire) :: rejects call ++
    [(call, .prepare), (call, .convert (some {"w"})), (call, .write converted), (call, .saved true),
      (call, .validate), (call, .moveAside)]

/-- One call rebuilds an interrupted directory, and another one finds the result complete. -/
theorem cache_published_atomically_rebuilt :
    ∃ final : Cache Bool,
      Machine.run (Cache.step (fun _ => {"w"})) (Cache.start (.folder interrupted))
        (rejects true ++ rebuilds true ++ [(true, .publish), (true, .clean), (false, .read),
          (false, .read), (false, .read)]) = some final ∧
      final.destination = .folder converted ∧ final.phase false = .returned ∧
      Whole (fun _ : Bool => {"w"}) (.folder interrupted) final.destination := by
  obtain ⟨final, ran⟩ : ∃ final : Cache Bool,
      Machine.run (Cache.step (fun _ => {"w"})) (Cache.start (.folder interrupted))
        (rejects true ++ rebuilds true ++ [(true, .publish), (true, .clean), (false, .read),
          (false, .read), (false, .read)]) = some final :=
    Option.isSome_iff_exists.mp (by decide +kernel)
  have reached : (Machine.run (Cache.step (fun _ : Bool => {"w"}))
      (Cache.start (.folder interrupted))
      (rejects true ++ rebuilds true ++ [(true, .publish), (true, .clean), (false, .read),
        (false, .read), (false, .read)])).map (fun cache => (cache.destination, cache.phase false)) =
      some (.folder converted, .returned) := by
    decide +kernel
  rw [ran] at reached
  obtain ⟨entry, phase⟩ := Prod.mk.inj (Option.some.inj reached)
  obtain ⟨-, whole, -⟩ := cache_published_atomically (fun _ : Bool => {"w"}) (.folder interrupted) _
    final ran (by decide +kernel)
  exact ⟨final, ran, entry, phase, whole⟩

/-- A first check opens the shard of the interrupted directory, which is then moved aside, finds
no index file, and returns while there is no cache at all. -/
theorem unlocked_check_accepts_interrupted_cache :
    complete {"w"} (some interrupted) = .incomplete ∧
    ∃ final : Cache Bool,
      Machine.run (Cache.step (fun _ => {"w"})) (Cache.start (.folder interrupted))
        ([(false, .read), (false, .read)] ++ rejects true ++ rebuilds true ++ [(false, .read)]) =
          some final ∧
      final.phase false = .returned ∧ final.destination = .absent ∧
      ¬ CompleteFor (fun _ => {"w"}) final false := by
  refine ⟨by decide +kernel, ?_⟩
  obtain ⟨final, ran⟩ : ∃ final : Cache Bool,
      Machine.run (Cache.step (fun _ => {"w"})) (Cache.start (.folder interrupted))
        ([(false, .read), (false, .read)] ++ rejects true ++ rebuilds true ++ [(false, .read)]) =
          some final :=
    Option.isSome_iff_exists.mp (by decide +kernel)
  have reached : (Machine.run (Cache.step (fun _ : Bool => {"w"}))
      (Cache.start (.folder interrupted))
      ([(false, .read), (false, .read)] ++ rejects true ++ rebuilds true ++ [(false, .read)])).map
        (fun cache => (cache.phase false, cache.destination)) = some (.returned, .absent) := by
    decide +kernel
  rw [ran] at reached
  obtain ⟨phase, entry⟩ := Prod.mk.inj (Option.some.inj reached)
  exact ⟨final, ran, phase, entry, absent_incomplete entry⟩

end PrimeRl.Trainer.Weights
