import PrimeRl.Orchestrator.TetherGroups
import PrimeRl.Orchestrator.TetherRestore
import PrimeRl.Support.Blocks

/-!
# Windows of a stream of rollouts

A controller is fed with a stream of statistics that is cut into groups in some
way, and is replaced now and then by a fresh one that reads its checkpoint. What
it holds is told by the full windows of the stream and by what came after them.
-/

namespace PrimeRl.Orchestrator.Tether

open Regression Fallible

/-! ## Groups and replacements -/

section
variable {Controller Stats Problem : Type}

inductive Event (Stats : Type) where
  | observe (group : List Stats)
  | replace

/-- The statistics that the events feed, in order. -/
def streamOf : List (Event Stats) → List Stats
  | [] => []
  | .observe group :: events => group ++ streamOf events
  | .replace :: events => streamOf events

inductive Stop (Problem : Type) where
  /-- A rollout was refused. -/
  | observe (message : String)
  /-- A checkpoint was refused. -/
  | load (problem : Problem)

/-- Follow events; `reload` is a fresh controller after it has read a checkpoint. -/
def follow (observeGroup : Controller → List Stats → Controller × Option String)
    (reload : Controller → Except Problem Controller) :
    Controller → List (Event Stats) → Except (Stop Problem) Controller
  | controller, [] => .ok controller
  | controller, .observe group :: events =>
      match observeGroup controller group with
      | (next, none) => follow observeGroup reload next events
      | (_, some message) => .error (.observe message)
  | controller, .replace :: events =>
      match reload controller with
      | .error problem => .error (.load problem)
      | .ok next => follow observeGroup reload next events

/-- Accepted groups in sequence are one accepted group. -/
theorem observe_each_append (observe : Controller → Stats → Except String Controller)
    (controller next : Controller) (first second : List Stats)
    (observed : observeEach observe controller first = (next, none)) :
    observeEach observe controller (first ++ second) = observeEach observe next second := by
  induction first generalizing controller with
  | nil =>
    cases observed
    rfl
  | cons stats rest inductionHypothesis =>
    rw [observeEach] at observed
    rw [List.cons_append, observeEach]
    cases accepted : observe controller stats with
    | error message =>
      rw [accepted] at observed
      cases observed
    | ok middle =>
      rw [accepted] at observed
      exact inductionHypothesis middle observed

section
variable {observe : Controller → Stats → Except String Controller}
  {Holds : List Stats → Controller → Prop} {Valid : Stats → Prop}
  (step : ∀ seen controller stats, Holds seen controller → Valid stats →
    ∃ next, observe controller stats = .ok next ∧ Holds (seen ++ [stats]) next)

include step

/-- What one rollout keeps of the stream so far is kept by a group. -/
theorem observe_each_holds (group : List Stats) (valid : ∀ stats ∈ group, Valid stats)
    (seen : List Stats) (controller : Controller) (holds : Holds seen controller) :
    ∃ next, observeEach observe controller group = (next, none) ∧ Holds (seen ++ group) next := by
  induction group generalizing seen controller with
  | nil => exact ⟨controller, rfl, (List.append_nil seen).symm ▸ holds⟩
  | cons stats rest inductionHypothesis =>
    obtain ⟨here, later⟩ := List.forall_mem_cons.mp valid
    obtain ⟨middle, accepted, kept⟩ := step seen controller stats holds here
    obtain ⟨next, observed, final⟩ := inductionHypothesis later (seen ++ [stats]) middle kept
    refine ⟨next, ?_, ?_⟩
    · rw [observeEach, accepted]
      exact observed
    · rwa [List.append_assoc, List.singleton_append] at final

/-- When checkpoints are read back, events end where their stream alone ends. -/
theorem follow_holds {reload : Controller → Except Problem Controller}
    (reloads : ∀ seen controller, Holds seen controller → reload controller = .ok controller)
    (events : List (Event Stats)) (valid : ∀ stats ∈ streamOf events, Valid stats)
    (seen : List Stats) (controller : Controller) (holds : Holds seen controller) :
    ∃ final, follow (observeEach observe) reload controller events = .ok final ∧
      observeEach observe controller (streamOf events) = (final, none) ∧
      Holds (seen ++ streamOf events) final := by
  induction events generalizing seen controller with
  | nil => exact ⟨controller, rfl, rfl, (List.append_nil seen).symm ▸ holds⟩
  | cons event events inductionHypothesis =>
    cases event with
    | replace =>
      obtain ⟨final, followed, observed, kept⟩ := inductionHypothesis valid seen controller holds
      refine ⟨final, ?_, observed, kept⟩
      rw [follow, reloads seen controller holds]
      exact followed
    | observe group =>
      rw [streamOf] at valid ⊢
      obtain ⟨here, later⟩ := List.forall_mem_append.mp valid
      obtain ⟨middle, first, middleHolds⟩ :=
        observe_each_holds step group here seen controller holds
      obtain ⟨final, followed, observed, kept⟩ :=
        inductionHypothesis later (seen ++ group) middle middleHolds
      refine ⟨final, ?_, ?_, ?_⟩
      · rw [follow, first]
        exact followed
      · rw [observe_each_append observe controller middle group _ first]
        exact observed
      · rwa [List.append_assoc] at kept

end

end

/-! ## Fits of windows -/

variable {Scalar : Type} [Field Scalar] [LinearOrder Scalar]

/-- The fit of the statistics of a window, if they have rows and are not degenerate. -/
def windowFit (config : AdaptiveTetherConfig Scalar) (stats : TetherRegressionStats Scalar) :
    Option Scalar :=
  if stats.weight = 0 then none
  else
    match fitTether stats config.ridge with
    | .error _ => none
    | .ok fit => fit

/-- A coefficient after a window; without a fit it keeps its value. -/
def averaged (config : AdaptiveTetherConfig Scalar) (rho : Scalar) (fit : Option Scalar) : Scalar :=
  fit.elim rho (fun fitRho => config.emaDecay * rho + (1 - config.emaDecay) * fitRho)

/-- A coefficient after windows with these fits. -/
def averageOf (config : AdaptiveTetherConfig Scalar) (fits : List (Option Scalar)) : Scalar :=
  fits.foldl (averaged config) config.initialRho

/-- Full windows are fitted once each, and a part of a window waits. -/
structure WindowCounts (batchSize length updates skippedUpdates pendingRollouts windows : Nat) :
    Prop where
  full : windows = length / batchSize
  fitted : updates + skippedUpdates = windows
  pending : pendingRollouts = length % batchSize

theorem residual_sum_nonneg (stats : TetherRegressionStats Scalar)
    (rho : Scalar) : 0 ≤ residualSum stats rho :=
  le_max_right _ _

/-! ## One coefficient -/

namespace AdaptiveTetherCoefficient

/-- The measures of the last window are not negative. -/
structure Measured (controller : AdaptiveTetherCoefficient Scalar) : Prop where
  mseGroup : 0 ≤ controller.lastMseGroup
  mseFit : 0 ≤ controller.lastMseFit
  mseEma : 0 ≤ controller.lastMseEma
  featurePower : 0 ≤ controller.lastFeaturePower

/-- What the fit of a window does. -/
structure Fitted (controller : AdaptiveTetherCoefficient Scalar)
    (stats : TetherRegressionStats Scalar) (next : AdaptiveTetherCoefficient Scalar) : Prop where
  same : SameConfig controller next
  rho : next.rho = averaged controller.config controller.rho (windowFit controller.config stats)
  updates : next.updates =
    controller.updates + if (windowFit controller.config stats).isSome then 1 else 0
  skipped : next.skippedUpdates =
    controller.skippedUpdates + if (windowFit controller.config stats).isNone then 1 else 0
  measured : next.Measured

variable [IsStrictOrderedRing Scalar]

theorem update_fitted (controller : AdaptiveTetherCoefficient Scalar)
    (stats : TetherRegressionStats Scalar) :
    ∃ next, controller.update stats = .ok next ∧ Fitted controller stats next := by
  rw [update]
  dsimp only
  by_cases unweighed : stats.weight = 0
  · rw [if_pos unweighed]
    have missing : windowFit controller.config stats = none := if_pos unweighed
    refine ⟨_, rfl, ⟨rfl, rfl, rfl, rfl⟩, ?_, ?_, ?_, ⟨le_rfl, le_rfl, le_rfl, le_rfl⟩⟩
    · rw [missing]
      rfl
    · simp [missing]
    · simp [missing]
  · rw [if_neg unweighed]
    have inverse : 0 ≤ 1 / (stats.weight : Scalar) := one_div_nonneg.mpr (Nat.cast_nonneg _)
    have residual (rho : Scalar) : 0 ≤ residualSum stats rho * (1 / (stats.weight : Scalar)) :=
      mul_nonneg (residual_sum_nonneg stats rho) inverse
    have group := mul_nonneg stats.targetsNonneg inverse
    have power := mul_nonneg stats.featuresNonneg inverse
    obtain ⟨fit, accepted⟩ :=
      fit_tether_accepts stats controller.config.ridge unweighed controller.config.ridgeNonneg
    have isFit : windowFit controller.config stats = fit := by
      rw [windowFit, if_neg unweighed, accepted]
    rw [accepted]
    cases fit with
    | none =>
      refine ⟨_, rfl, ⟨rfl, rfl, rfl, rfl⟩, ?_, ?_, ?_, ⟨group, residual _, residual _, power⟩⟩
      · rw [isFit]
        rfl
      · simp [isFit]
      · simp [isFit]
    | some fitRho =>
      refine ⟨_, rfl, ⟨rfl, rfl, rfl, rfl⟩, ?_, ?_, ?_, ⟨group, residual _, residual _, power⟩⟩
      · rw [isFit]
        rfl
      · simp [isFit]
      · simp [isFit]

/-- What a controller holds after the full windows of a stream and the rollouts behind them. -/
structure Windowed (config : AdaptiveTetherConfig Scalar) (batchSize : Nat)
    (stream : List (TetherRegressionStats Scalar)) (controller : AdaptiveTetherCoefficient Scalar)
    (windows : List (List (TetherRegressionStats Scalar)))
    (rest : List (TetherRegressionStats Scalar)) : Prop where
  cut : Blocks.Cut batchSize stream windows rest
  short : rest.length < batchSize
  rho : controller.rho = averageOf config (windows.map (fun window => windowFit config window.sum))
  updates : controller.updates =
    windows.countP (fun window => (windowFit config window.sum).isSome)
  skipped : controller.skippedUpdates =
    windows.countP (fun window => (windowFit config window.sum).isNone)
  pendingRollouts : controller.pendingRollouts = rest.length
  pending : controller.pending = rest.sum

theorem Windowed.counts {config : AdaptiveTetherConfig Scalar}
    {batchSize : Nat} {stream rest : List (TetherRegressionStats Scalar)}
    {controller : AdaptiveTetherCoefficient Scalar}
    {windows : List (List (TetherRegressionStats Scalar))}
    (windowed : Windowed config batchSize stream controller windows rest) :
    WindowCounts batchSize stream.length controller.updates controller.skippedUpdates
      controller.pendingRollouts windows.length := by
  obtain ⟨full, behind⟩ := windowed.cut.counts windowed.short
  refine ⟨full, ?_, windowed.pendingRollouts.trans behind⟩
  rw [windowed.updates, windowed.skipped, List.length_eq_countP_add_countP
    (fun window => (windowFit config window.sum).isSome)]
  congr 1
  apply List.countP_congr
  intro window _
  rw [decide_eq_true_eq, Option.isNone_iff_eq_none, Option.not_isSome_iff_eq_none]

/-- A controller of this configuration that has seen this stream. -/
structure Seen (fresh : AdaptiveTetherCoefficient Scalar)
    (stream : List (TetherRegressionStats Scalar))
    (controller : AdaptiveTetherCoefficient Scalar) : Prop where
  same : SameConfig fresh controller
  measured : controller.Measured
  windowed : ∃ windows rest, Windowed fresh.config fresh.batchSize stream controller windows rest

theorem create_seen {config : AdaptiveTetherConfig Scalar} {batchSize : Nat}
    {gamma gaeLambda : Scalar} {fresh : AdaptiveTetherCoefficient Scalar}
    (created : create config batchSize gamma gaeLambda = .ok fresh) : Seen fresh [] fresh := by
  rw [create] at created
  split_ifs at created with empty
  cases created
  have positive : 0 < batchSize := by omega
  exact ⟨⟨rfl, rfl, rfl, rfl⟩, ⟨le_rfl, le_rfl, le_rfl, le_rfl⟩, [], [],
    ⟨Blocks.cut_nil batchSize, positive, rfl, rfl, rfl, rfl, rfl⟩⟩

omit [IsStrictOrderedRing Scalar] in
theorem create_config {config : AdaptiveTetherConfig Scalar} {batchSize : Nat}
    {gamma gaeLambda : Scalar} {fresh : AdaptiveTetherCoefficient Scalar}
    (created : create config batchSize gamma gaeLambda = .ok fresh) :
    fresh.config = config ∧ fresh.batchSize = batchSize := by
  rw [create] at created
  split_ifs at created
  cases created
  exact ⟨rfl, rfl⟩

/-- One rollout is accepted and goes behind the stream. -/
theorem observe_rollout_seen (fresh : AdaptiveTetherCoefficient Scalar)
    (stream : List (TetherRegressionStats Scalar)) (controller : AdaptiveTetherCoefficient Scalar)
    (stats : TetherRegressionStats Scalar) (seen : Seen fresh stream controller) :
    ∃ next, controller.observeRollout stats = .ok next ∧ Seen fresh (stream ++ [stats]) next := by
  obtain ⟨⟨config, batchSize, gamma, gaeLambda⟩, measured, windows, rest, windowed⟩ := seen
  have pending : controller.pending + stats = (rest ++ [stats]).sum := by
    rw [List.sum_append, List.sum_singleton, windowed.pending]
  have counted : controller.pendingRollouts + 1 = (rest ++ [stats]).length := by
    rw [windowed.pendingRollouts, List.length_append, List.length_singleton]
  have extended := windowed.cut.extend [stats]
  by_cases full : controller.pendingRollouts + 1 = controller.batchSize
  · obtain ⟨fitted, updated, same, rho, updates, skipped, measures⟩ :=
      update_fitted (controller.enqueue stats) (controller.enqueue stats).pending
    have isWindow : windowFit (controller.enqueue stats).config (controller.enqueue stats).pending =
        windowFit fresh.config (rest ++ [stats]).sum := by
      rw [show (controller.enqueue stats).config = controller.config from rfl, ← config,
        show (controller.enqueue stats).pending = controller.pending + stats from rfl, pending]
    rw [isWindow] at rho updates skipped
    refine ⟨{ fitted with pendingRollouts := 0, pending := 0 }, ?_, ?_, ?_,
      windows ++ [rest ++ [stats]], [], ?_⟩
    · rw [observeRollout]
      change (if controller.pendingRollouts + 1 = controller.batchSize then _ else _) = _
      rw [if_pos full, updated]
      rfl
    · exact ⟨config.trans same.1, batchSize.trans same.2.1, gamma.trans same.2.2.1,
        gaeLambda.trans same.2.2.2⟩
    · exact ⟨measures.mseGroup, measures.mseFit, measures.mseEma, measures.featurePower⟩
    · have whole : (rest ++ [stats]).length = fresh.batchSize := by
        rw [← counted, full, batchSize]
      refine ⟨extended.close whole, Nat.zero_lt_of_lt windowed.short, ?_, ?_, ?_, rfl, rfl⟩
      · have before : (controller.enqueue stats).rho =
            averageOf fresh.config (windows.map (fun window => windowFit fresh.config window.sum)) :=
          windowed.rho
        have sameConfig : (controller.enqueue stats).config = fresh.config := config.symm
        rw [List.map_append, List.map_singleton, averageOf, List.foldl_append]
        rw [before, sameConfig] at rho
        exact rho
      · rw [List.countP_append, List.countP_singleton, ← windowed.updates]
        exact updates
      · rw [List.countP_append, List.countP_singleton, ← windowed.skipped]
        exact skipped
  · refine ⟨controller.enqueue stats, if_neg full, ⟨config, batchSize, gamma, gaeLambda⟩,
      ⟨measured.mseGroup, measured.mseFit, measured.mseEma, measured.featurePower⟩, windows,
      rest ++ [stats], extended, ?_, windowed.rho, windowed.updates, windowed.skipped, counted,
      pending⟩
    have short := windowed.short
    rw [windowed.pendingRollouts, ← batchSize] at full
    rw [List.length_append, List.length_singleton]
    omega

theorem Seen.sound {fresh controller : AdaptiveTetherCoefficient Scalar}
    {stream : List (TetherRegressionStats Scalar)} (seen : Seen fresh stream controller) :
    controller.Sound := by
  obtain ⟨same, measured, windows, rest, windowed⟩ := seen
  refine ⟨?_, measured.mseGroup, measured.mseFit, measured.mseEma, measured.featurePower⟩
  rw [windowed.pendingRollouts, ← same.2.1]
  exact windowed.short

end AdaptiveTetherCoefficient

end PrimeRl.Orchestrator.Tether
