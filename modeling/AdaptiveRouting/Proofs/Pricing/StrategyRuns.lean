import AdaptiveRouting.Pricing.Strategy
import AdaptiveRouting.Proofs.Monitor.CostBounds
import AdaptiveRouting.Proofs.Monitor.CostWrites
import AdaptiveRouting.Proofs.Monitor.Quiescence
import AdaptiveRouting.Proofs.Pricing.Prices

/-!
# Runs with strategies

A strategy prices the links by a transform that is set as a hook, and its state is in the memory of
the hooks. In a `PricedRun` strategies come and go: each begins with nothing seen or learned, hooks
may be set that belong to none, and performance may be reported to a model at any time.

Along such a run the load-aware prices in force keep to the cap (`Monitor.Capped`), so a cost that
is written on the answer of the load-aware transform does as well (`Monitor.Capped.loadAware_le`). A
cost that is written on the answer of the learning transform is the configured cost and a share of
it on top (`Monitor.Capped.learning_eq`).
-/

namespace AdaptiveRouting

open Quantity (number)

variable {τ : Type}

/-! ## What the hooks remember -/

section
variable {α σ : Type} [Scalar α]

/-- What the hooks remember after a revision is what the transform leaves, if it is asked. -/
theorem Revision.memory_result {P : σ → Prop} {r : Revision α σ} (h : P r.monitor.memory)
    (htransform : ∀ transform link, r.monitor.hooks.transform = some transform →
      r.monitor.links[r.neighbor]? = some link →
      P (transform r.monitor.clock r.neighbor r.cost link.metrics r.monitor.memory).2) :
    P r.result.memory := by
  unfold result Monitor.updateCost
  split
  · exact h
  · next advertised metrics hrevisable =>
    obtain ⟨link, -, hlink, -, rfl⟩ := MonitorState.of_revisable? hrevisable
    dsimp only [Monitor.act, Monitor.transformed]
    cases ht : r.monitor.hooks.transform with
    | none => exact h
    | some transform => exact htransform transform link ht hlink

namespace Monitor

variable {m : Monitor α σ} {o : ProbeOutcome} {P : σ → Prop}

/-- What holds of the memory and is kept by the feedback holds after it. -/
theorem memory_tellPerformance (h : P m.memory)
    (hfeedback : ∀ feedback n score, m.hooks.feedback = some feedback →
      P (feedback m.clock n score m.memory))
    (n : Name) (x : MonitorState.Measurement α) :
    (m.tellPerformance n x).hooks = m.hooks ∧ P (m.tellPerformance n x).memory := by
  unfold tellPerformance
  split
  · exact ⟨rfl, h⟩
  · next feedback heq =>
    split
    · exact ⟨rfl, hfeedback feedback n _ heq⟩
    · exact ⟨rfl, h⟩

/-- What the hooks remember when an answer leads to a revision is what the feedback leaves. -/
theorem memory_of_revision? {r : Revision α σ} (h : P m.memory)
    (hfeedback : ∀ feedback clock n score, m.hooks.feedback = some feedback →
      P (feedback clock n score m.memory)) (hr : m.revision? (.outcome o) = some r) :
    r.monitor.hooks = m.hooks ∧ P r.monitor.memory := by
  obtain ⟨-, hr⟩ := Option.ite_none_right_eq_some.1 hr
  obtain ⟨⟨n, x⟩, -, hr⟩ := Option.bind_eq_some_iff.1 hr
  obtain ⟨cost, -, rfl⟩ := Option.map_eq_some_iff.1 hr
  exact memory_tellPerformance (m := { m with toMonitorState := (m.measure o.seq).2 }) h
    (fun feedback n score hf => hfeedback feedback _ n score hf) n x

/-- And so it is if the outcome leads to none. -/
theorem memory_of_unrevised (h : P m.memory)
    (hfeedback : ∀ feedback clock n score, m.hooks.feedback = some feedback →
      P (feedback clock n score m.memory)) (hr : m.revision? (.outcome o) = none) :
    P (m.apply (.outcome o)).memory := by
  show P (m.handleOutcome o).memory
  cases hkind : o.kind with
  | nack | timeout =>
    unfold handleOutcome
    rw [hkind]
    exact h
  | data =>
    rw [revision?, if_pos hkind, answerRevision?] at hr
    rw [handleOutcome_of_data hkind]
    dsimp only [handleResponse]
    cases hmeasured : (m.measure o.seq).1 with
    | none => exact h
    | some measured =>
      obtain ⟨n, x⟩ := measured
      rw [hmeasured] at hr
      dsimp only
      -- The hooks have heard of the measurement, and nothing is asked of them.
      rw [reviseCost_eq, Option.map_eq_none_iff.1 hr]
      exact (memory_tellPerformance (m := { m with toMonitorState := (m.measure o.seq).2 }) h
        (fun feedback n score hf => hfeedback feedback _ n score hf) n x).2

end Monitor

end

/-! ## Strategies that come and go -/

section
variable {α : Type} [Scalar α]

/-- Hooks that are those of a strategy, or that leave the strategy in force as it is. -/
structure Hooks.SpareStrategy (hooks : Hooks α (HookMemory α τ)) : Prop where
  transform {t : CostTransform α (HookMemory α τ)} : hooks.transform = some t →
    t = Strategy.loadAwareTransform ∨ t = Strategy.learningTransform ∨
      ∀ clock n cost metrics memory, (t clock n cost metrics memory).2.strategy = memory.strategy
  feedback {f : PerformanceFeedback α (HookMemory α τ)} : hooks.feedback = some f →
    f = Strategy.learningFeedback ∨
      ∀ clock n score memory, (f clock n score memory).strategy = memory.strategy

/-- What others can do to the strategy in force. -/
inductive Monitor.StrategyChange (m : Monitor α (HookMemory α τ)) : Option (Strategy α) → Prop where
  | kept : StrategyChange m m.memory.strategy
  | abandoned : StrategyChange m none
  /-- Load-aware pricing begins. -/
  | loadAware : StrategyChange m (some (.loadAware (.fresh m.settings.maxMultiplier)))
  /-- Learning begins. -/
  | learning (settings : LearningSettings α) :
    StrategyChange m (some (.learning (.untrained settings m.clock.now)))
  /-- A performance is reported to the model. -/
  | reported {model : CostModel α} (neighbor : Name) (score : α) :
    m.memory.strategy = some (.learning model) →
    StrategyChange m (some (.learning (model.report m.clock neighbor score)))

end

/-- Prices in force are within the cap, if they are load-aware. -/
def HookMemory.Within (k : ℝ) (configured : Name → ℝ) (memory : HookMemory Quantity τ) : Prop :=
  ∀ state, Strategy.loadAware? memory.strategy = some state → state.Within k configured

namespace HookMemory.Within

variable {k : ℝ} {configured : Name → ℝ} {memory memory' : HookMemory Quantity τ}

/-- Whether prices are within the cap depends on the strategy only. -/
theorem of_strategy_eq (h : memory.Within k configured) (heq : memory'.strategy = memory.strategy) :
    memory'.Within k configured := by
  intro state hstate
  rw [heq] at hstate
  exact h state hstate

/-- The learning strategy has no prices in force. -/
theorem of_learning {model : CostModel Quantity} (heq : memory.strategy = some (.learning model)) :
    memory.Within k configured := by
  intro state hstate
  rw [heq] at hstate
  cases hstate

/-- The load-aware transform keeps prices within the cap. -/
theorem loadAwareTransform (h : memory.Within k configured) (clock : Clock) {n : Name}
    (cost : Quantity) {metrics : LinkMetrics Quantity}
    (hconfigured : metrics.configuredCost = number (configured n)) :
    (Strategy.loadAwareTransform clock n cost metrics memory).2.Within k configured := by
  unfold Strategy.loadAwareTransform
  split
  · exact h
  · next state hstate =>
    intro state' hstate'
    cases hstate'
    exact ((h state hstate).price_le clock.now cost hconfigured).2

/-- The learning transform has no price to keep within the cap. -/
theorem learningTransform (h : memory.Within k configured) (clock : Clock) (n : Name)
    (cost : Quantity) (metrics : LinkMetrics Quantity) :
    (Strategy.learningTransform clock n cost metrics memory).2.Within k configured := by
  unfold Strategy.learningTransform
  split
  · exact h
  · exact of_learning rfl

/-- The feedback of the learning strategy leaves prices alone. -/
theorem learningFeedback (h : memory.Within k configured) (clock : Clock) (n : Name)
    (score : Quantity) : (Strategy.learningFeedback clock n score memory).Within k configured := by
  unfold Strategy.learningFeedback
  split
  · exact h
  · exact of_learning rfl

end HookMemory.Within

namespace Monitor

variable {k : ℝ} {configured : Name → ℝ} {m : Monitor Quantity (HookMemory Quantity τ)}
  {op : Operation Quantity (HookMemory Quantity τ)}

/-- A step of a run in which every neighbor has one configured cost and strategies begin with
nothing learned. -/
def Admits (m : Monitor Quantity (HookMemory Quantity τ)) (configured : Name → ℝ) :
    Operation Quantity (HookMemory Quantity τ) → Prop
  | .adoptNeighbors => ∀ a ∈ m.neighbors.toList, a.configuredCost = number (configured a.name)
  | .setHooks hooks memory => hooks.SpareStrategy ∧ m.StrategyChange memory.strategy
  | _ => True

/-- What holds of a monitor along such a run. -/
structure Capped (k : ℝ) (configured : Name → ℝ) (m : Monitor Quantity (HookMemory Quantity τ)) :
    Prop where
  maxMultiplier : m.settings.maxMultiplier = number k
  configuredCost {n : Name} {cost : Quantity} : m.configuredCost? n = some cost →
    cost = number (configured n)
  hooks : m.hooks.SpareStrategy
  memory : m.memory.Within k configured

/-- Every link has the configured cost of its neighbor. -/
theorem Capped.link (h : m.Capped k configured) {n : Name} {link : LinkState Quantity}
    (hlink : m.links[n]? = some link) : link.configuredCost = number (configured n) :=
  h.configuredCost (by rw [MonitorState.configuredCost?, hlink, Option.map_some])

/-- Whatever feedback is set keeps prices within the cap. -/
theorem Capped.feedback (h : m.Capped k configured)
    {feedback : PerformanceFeedback Quantity (HookMemory Quantity τ)}
    (hf : m.hooks.feedback = some feedback) (clock : Clock) (n : Name) (score : Quantity) :
    (feedback clock n score m.memory).Within k configured := by
  rcases h.hooks.feedback hf with rfl | hspares
  · exact h.memory.learningFeedback clock n score
  · exact h.memory.of_strategy_eq (hspares clock n score m.memory)

/-- Whatever transform is set keeps prices within the cap. -/
theorem Capped.transform (h : m.Capped k configured)
    {transform : CostTransform Quantity (HookMemory Quantity τ)}
    (ht : m.hooks.transform = some transform) (clock : Clock) {n : Name} (cost : Quantity)
    {metrics : LinkMetrics Quantity}
    (hconfigured : metrics.configuredCost = number (configured n)) :
    (transform clock n cost metrics m.memory).2.Within k configured := by
  rcases h.hooks.transform ht with rfl | rfl | hspares
  · exact h.memory.loadAwareTransform clock cost hconfigured
  · exact h.memory.learningTransform clock n cost metrics
  · exact h.memory.of_strategy_eq (hspares clock n cost metrics m.memory)

/-- A revision finds a monitor of which the same holds. -/
theorem Capped.of_revision? (h : m.Capped k configured)
    {r : Revision Quantity (HookMemory Quantity τ)} (hr : m.revision? op = some r) :
    r.monitor.Capped k configured := by
  cases op with
  | updateCost n cost =>
    cases hr
    exact h
  | outcome o =>
    obtain ⟨hhooks, hmemory⟩ := memory_of_revision? h.memory
      (fun feedback clock n score hf => h.feedback hf clock n score) hr
    obtain ⟨hstate, -⟩ := stable_of_revision? hr
    refine ⟨?_, ?_, hhooks ▸ h.hooks, hmemory⟩
    · obtain ⟨_, _, _, heq⟩ := m.take_eq o
      rw [hstate, heq]
      exact h.maxMultiplier
    · intro n cost hcost
      rw [MonitorState.configuredCost?, hstate,
        m.map_take o (·.configuredCost) fun _ _ => rfl] at hcost
      exact h.configuredCost hcost
  | _ => cases hr

/-- A revision keeps prices within the cap. -/
theorem Capped.result {r : Revision Quantity (HookMemory Quantity τ)}
    (h : r.monitor.Capped k configured) : r.result.memory.Within k configured :=
  Revision.memory_result h.memory fun _ _ ht hlink => h.transform ht _ _ (h.link hlink)

/-- A strategy that others put in force has no price above the cap. -/
theorem StrategyChange.within (h : m.Capped k configured) {memory : HookMemory Quantity τ}
    (hchange : m.StrategyChange memory.strategy) : memory.Within k configured := by
  intro state hstate
  generalize memory.strategy = strategy at hchange hstate
  cases hchange with
  | kept => exact h.memory state hstate
  | loadAware =>
    cases hstate
    rw [h.maxMultiplier]
    exact LoadAware.within_fresh k configured
  | abandoned | learning settings | reported neighbor score hmodel => cases hstate

/-- An admitted operation keeps prices within the cap. -/
theorem Capped.memory_apply (h : m.Capped k configured) (hop : m.Admits configured op) :
    (m.apply op).memory.Within k configured := by
  cases op with
  | setHooks hooks memory => exact hop.2.within h
  | updateCost n cost =>
    exact Capped.result (r := ⟨m, n, cost⟩) h
  | outcome o =>
    cases hr : m.revision? (.outcome o) with
    | none =>
      exact memory_of_unrevised h.memory (fun _ clock n score hf => h.feedback hf clock n score) hr
    | some r =>
      rw [apply_of_revision? hr]
      exact (h.of_revision? hr).result
  | adoptNeighbors | start | stop | poll | scheduleProbe _ | sendProbe _ | news _ | report
  | advance _ | surround _ => exact h.memory

/-- An admitted operation gives no neighbor another configured cost. -/
theorem Capped.configuredCost_apply (h : m.Capped k configured) (hop : m.Admits configured op)
    {n : Name} {cost : Quantity} (hcost : (m.apply op).configuredCost? n = some cost) :
    cost = number (configured n) := by
  by_cases hadopt : op = .adoptNeighbors
  · subst hadopt
    obtain ⟨link, hlink, rfl⟩ := Option.map_eq_some_iff.1 hcost
    rcases MonitorState.of_adoptNeighbors hlink with hold | ⟨a, ha, rfl, rfl⟩
    · exact h.link hold
    · exact hop a ha
  · rw [configuredCost?_apply hadopt] at hcost
    exact h.configuredCost hcost

/-- An admitted operation keeps all that holds along the run. -/
theorem Capped.apply (h : m.Capped k configured) (hop : m.Admits configured op) :
    (m.apply op).Capped k configured where
  maxMultiplier := (m.settings_apply op).symm ▸ h.maxMultiplier
  configuredCost hcost := h.configuredCost_apply hop hcost
  hooks := hooks_apply h.hooks fun hooks memory heq => by
    subst heq
    exact hop.1
  memory := h.memory_apply hop

/-- What holds along a run holds at each of its steps. -/
theorem Capped.steps (h : m.Capped k configured)
    {ops : List (Operation Quantity (HookMemory Quantity τ))}
    (hops : ∀ s ∈ m.steps ops, s.1.Admits configured s.2) :
    ∀ s ∈ m.steps ops, s.1.Capped k configured := by
  induction ops generalizing m with
  | nil => exact fun s hs => absurd hs List.not_mem_nil
  | cons op ops ih =>
    obtain ⟨hop, hrest⟩ := List.forall_mem_cons.1 hops
    exact List.forall_mem_cons.2 ⟨h, ih (h.apply hop) hrest⟩

end Monitor

/-! ## Prices that are written -/

/-- The revision writes the answer of a transform for a link that has been measured. -/
structure Revision.WritesAnswer {α σ : Type} [Scalar α] (r : Revision α σ)
    (transform : CostTransform α σ) (cost : α) : Prop where
  asked : r.monitor.hooks.transform = some transform
  answer : ∃ link neighbors, r.monitor.links[r.neighbor]? = some link ∧ link.history ≠ [] ∧
    r.answer? link.metrics = some cost ∧ r.written? = some (cost, neighbors)

namespace Monitor.Capped

variable {k : ℝ} {configured : Name → ℝ} {r : Revision Quantity (HookMemory Quantity τ)}
  {cost : Quantity}

/-- An answer of the load-aware transform that is written is within the cap. -/
theorem loadAware_le (h : r.monitor.Capped k configured)
    (hw : r.WritesAnswer Strategy.loadAwareTransform cost) :
    cost ≤ number (configured r.neighbor * k) := by
  obtain ⟨hasked, link, -, hlink, hmeasured, hanswer, -⟩ := hw
  unfold Revision.answer? at hanswer
  rw [hasked] at hanswer
  obtain ⟨hprice, -⟩ := Option.filter_eq_some_iff.1 hanswer
  unfold Strategy.loadAwareTransform at hprice
  split at hprice
  · cases hprice
  · next state hstate =>
    obtain rfl := Option.some.inj hprice
    refine ((h.memory state hstate).price_le _ _ (h.link hlink)).1 fun hnone => hmeasured ?_
    exact Duration.average?_eq_none_iff.1 hnone

/-- An answer of the learning transform that is written exceeds the configured cost by a share of
it. -/
theorem learning_eq (h : r.monitor.Capped k configured)
    (hw : r.WritesAnswer Strategy.learningTransform cost) :
    ∃ share, 0 ≤ share ∧ share ≤ 1 ∧ 0 < configured r.neighbor ∧
      cost = number (configured r.neighbor * (1 + share)) := by
  obtain ⟨hasked, link, -, hlink, -, hanswer, -⟩ := hw
  unfold Revision.answer? at hanswer
  rw [hasked] at hanswer
  obtain ⟨hprice, husable⟩ := Option.filter_eq_some_iff.1 hanswer
  obtain ⟨p, hp, rfl⟩ : ∃ p, 0 < p ∧ cost = number p :=
    Quantity.zero_lt_iff.1 (of_decide_eq_true (Bool.and_eq_true_iff.1 husable).2)
  unfold Strategy.learningTransform at hprice
  split at hprice
  · cases hprice
  · obtain ⟨share, -, hlow, hhigh, rfl⟩ :=
      CostModel.predictCost_eq (h.link hlink) (Option.some.inj hprice)
    exact ⟨share, hlow, hhigh, pos_of_mul_pos_left hp (by linarith), rfl⟩

end Monitor.Capped

/-! ## Runs -/

/-- A run under given settings in which strategies come and go. -/
structure PricedRun (settings : LinkSettings Quantity) (others : τ) where
  surroundings : Surroundings Quantity
  /-- What the neighbors are configured to cost. -/
  configured : Name → ℝ
  ops : List (Operation Quantity (HookMemory Quantity τ))
  admitted : ∀ s ∈ (Monitor.idle surroundings settings ⟨none, others⟩).steps ops,
    s.1.Admits configured s.2

namespace PricedRun

variable {settings : LinkSettings Quantity} {others : τ} {k : ℝ} {n : Name} {cost : Quantity}
  {transform : CostTransform Quantity (HookMemory Quantity τ)}

/-- In the run a cost is written for a measured neighbor that is the answer of a transform. -/
def Writes (run : PricedRun settings others)
    (transform : CostTransform Quantity (HookMemory Quantity τ)) (n : Name) (cost : Quantity) :
    Prop :=
  ∃ s ∈ (Monitor.idle run.surroundings settings ⟨none, others⟩).steps run.ops, ∃ r,
    s.1.revision? s.2 = some r ∧ r.neighbor = n ∧ r.WritesAnswer transform cost

/-- A new monitor has neither links nor prices. -/
theorem capped_idle (surroundings : Surroundings Quantity) (configured : Name → ℝ)
    (hk : settings.maxMultiplier = number k) :
    (Monitor.idle surroundings settings (⟨none, others⟩ : HookMemory Quantity τ)).Capped k
      configured where
  maxMultiplier := hk
  configuredCost hcost := by
    simp [MonitorState.configuredCost?, Monitor.idle, MonitorState.idle] at hcost
  hooks := { transform := nofun, feedback := nofun }
  memory := nofun

/-- A cost that is written in a run is written in a state within the cap. -/
theorem Writes.exists_capped {run : PricedRun settings others} (h : run.Writes transform n cost)
    (hk : settings.maxMultiplier = number k) :
    ∃ r : Revision Quantity (HookMemory Quantity τ), r.neighbor = n ∧
      r.monitor.Capped k run.configured ∧ r.WritesAnswer transform cost := by
  obtain ⟨s, hs, r, hr, hn, hw⟩ := h
  have hcapped := (capped_idle run.surroundings run.configured hk).steps run.admitted s hs
  exact ⟨r, hn, hcapped.of_revision? hr, hw⟩

end PricedRun

end AdaptiveRouting
