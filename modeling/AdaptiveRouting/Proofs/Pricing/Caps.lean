import AdaptiveRouting.Proofs.Pricing.StrategyRuns

/-!
# Strategies and the cap

The costs that the load-aware strategy has written never exceed the cap, which is a multiple of the
configured cost. Those of the learning strategy are the configured cost and a share of it on top,
and nothing else limits them; so they are within the cap in all runs exactly if that is twice the
configured cost or more (`strategies_and_cap`).

That a smaller cap is exceeded takes a run in which the model learns from one report of a very bad
performance (`Overcharged.run`). The run is the same for all settings: its neighbor is measured
once, and after that the costs that have been changed on account of that are put back.
-/

namespace AdaptiveRouting

open Quantity (number)

variable {τ : Type}

/-- In sound settings a change by the old cost or more is not too small to be written. -/
theorem LinkSettings.fineThreshold_eq {settings : LinkSettings Quantity}
    (h : settings.violation? = none) : ∃ f : ℝ, f ≤ 1 ∧ settings.fineThreshold = number f := by
  obtain ⟨hpos, hone⟩ := (violation?_eq_none_iff.1 h).fineThreshold
  obtain ⟨f, -, hf⟩ := Quantity.zero_lt_iff.1 hpos
  rw [hf, Quantity.one_eq, Quantity.number_le_number] at hone
  exact ⟨f, hone, hf⟩

namespace Overcharged

open Capped (neighbor)

/-- What the monitor acts on: the neighbor is configured to cost 1, but is advertised at less. -/
noncomputable def surroundings : Surroundings Quantity :=
  { (Surroundings.quiet : Surroundings Quantity) with
    neighbors := .ofList [⟨neighbor, .active, number (1 / (2 : ℕ)), number 1, 0⟩] }

variable (settings : LinkSettings Quantity) (others : τ)

/-- The neighbor is taken over and probed. -/
def probing : List (Operation Quantity (HookMemory Quantity τ)) :=
  [.adoptNeighbors, .sendProbe neighbor]

/-- It answers at once. Then the surroundings are put back to what they were. -/
noncomputable def measuring : List (Operation Quantity (HookMemory Quantity τ)) :=
  probing ++ [.outcome ⟨neighbor, 1, .data⟩, .surround fun _ => surroundings]

noncomputable def probed : Monitor Quantity (HookMemory Quantity τ) :=
  (Monitor.idle surroundings settings ⟨none, others⟩).run probing

noncomputable def measured : Monitor Quantity (HookMemory Quantity τ) :=
  (Monitor.idle surroundings settings ⟨none, others⟩).run measuring

/-- The monitor has its surroundings back when the neighbor has been measured. -/
theorem toSurroundings_measured : (measured settings others).toSurroundings = surroundings := by
  have hnow :
      ((probed settings others).apply (.outcome ⟨neighbor, 1, .data⟩)).clock.now = 0 := by
    rw [Monitor.now_apply]
    rfl
  show ({ surroundings with
    clock := { surroundings.clock with
      now := ((probed settings others).apply (.outcome ⟨neighbor, 1, .data⟩)).clock.now } } :
        Surroundings Quantity) = surroundings
  rw [hnow]
  rfl

/-- A round-trip time of zero counts as something. -/
theorem countedRtt?_zero_ne_none :
    MonitorState.countedRtt? settings 0 ≠ none := by
  unfold MonitorState.countedRtt?
  split
  · exact Option.some_ne_none _
  · rw [if_neg (Nat.not_lt_zero _)]
    exact Option.some_ne_none _

/-- The neighbor has an active link with a round-trip time and its configured cost. -/
theorem exists_link : ∃ link, (measured settings others).links[neighbor]? = some link ∧
    link.status = .active ∧ link.configuredCost = number 1 ∧ link.history ≠ [] := by
  let m := probed settings others
  let link : LinkState Quantity :=
    .configured neighbor .active (number 1) (number (1 / 2)) 0 0 settings.historyCapacity
  have hlink : m.links[neighbor]? = some link := rfl
  have hprobe : m.pending[(1 : UInt32)]? = some ⟨neighbor, 0⟩ := rfl
  have htaken : ∃ rtt, (m.take ⟨neighbor, 1, .data⟩).links[neighbor]? = some (link.record rtt) := by
    show ∃ rtt, (m.measure 1).2.links[neighbor]? = some (link.record rtt)
    rcases m.measure_cases 1 with ⟨hnone, -⟩ | ⟨probe, hp, ⟨hrefused, -⟩ | ⟨rtt, -, heq⟩⟩
    · cases hprobe.symm.trans hnone
    · cases hprobe.symm.trans hp
      exact absurd hrefused (countedRtt?_zero_ne_none settings)
    · cases hprobe.symm.trans hp
      refine ⟨rtt, ?_⟩
      rw [heq]
      dsimp only [MonitorState.recordRtt]
      rw [hlink]
      exact Std.ExtTreeMap.getElem?_insert_self
  obtain ⟨rtt, hrecorded⟩ := htaken
  have hstanding := (m.sameStanding_outcome ⟨neighbor, 1, .data⟩).map_eq
    (fun l => (l.status, l.configuredCost, l.history)) (fun _ => rfl) neighbor
  rw [hrecorded, Option.map_some] at hstanding
  obtain ⟨link', hlink', heq⟩ := Option.map_eq_some_iff.1 hstanding
  simp only [Prod.mk.injEq] at heq
  obtain ⟨hstatus, hconfigured, hhistory⟩ := heq
  refine ⟨link', hlink', hstatus, hconfigured, ?_⟩
  rw [hhistory]
  exact List.append_ne_nil_of_right_ne_nil _ (List.cons_ne_nil _ _)

/-! ## Learning -/

/-- The hooks of the learning strategy. -/
noncomputable def hooks : Hooks Quantity (HookMemory Quantity τ) :=
  ⟨some Strategy.learningTransform, some Strategy.learningFeedback⟩

noncomputable def untrained : CostModel Quantity := .untrained .standard 0

/-- The model after a report. -/
noncomputable def taught (actual : ℝ) : CostModel Quantity :=
  untrained.report surroundings.clock neighbor (number actual)

noncomputable def learning (actual : ℝ) : List (Operation Quantity (HookMemory Quantity τ)) :=
  [.setHooks hooks ⟨some (.learning untrained), others⟩,
    .setHooks hooks ⟨some (.learning (taught actual)), others⟩]

/-- The monitor when the model has learned from the report. -/
noncomputable def informed (actual : ℝ) : Monitor Quantity (HookMemory Quantity τ) :=
  { measured settings others with
    hooks := hooks
    memory := ⟨some (.learning (taught actual)), others⟩ }

/-- The run leads to the monitor whose model has learned from the report. -/
theorem run_learning (actual : ℝ) : (Monitor.idle surroundings settings ⟨none, others⟩).run
    (measuring ++ learning others actual) = informed settings others actual := by
  rw [Monitor.run_append]
  rfl

/-- The cost of the neighbor is revised. -/
noncomputable def revision (actual : ℝ) : Revision Quantity (HookMemory Quantity τ) :=
  ⟨informed settings others actual, neighbor, number 1⟩

/-- The price is the answer of the transform. -/
theorem answer?_revision {link : LinkState Quantity} (hlink : link.configuredCost = number 1)
    {actual share : ℝ} (hshare : 0 ≤ share)
    (hscore : (taught actual).score
      ((taught actual).features surroundings.clock.minuteOfDay neighbor) = number share) :
    (revision settings others actual).answer? link.metrics = some (number (1 + share)) := by
  have hclock : (informed settings others actual).clock = surroundings.clock :=
    congrArg (·.clock) (toSurroundings_measured settings others)
  have hprice : ((taught actual).predictCost surroundings.clock neighbor link.metrics).1 =
      number (1 + share) := by
    unfold CostModel.predictCost
    dsimp only
    rw [show link.metrics.configuredCost = number 1 from hlink, hscore, Quantity.one_eq,
      Quantity.number_add_number, Quantity.number_mul_number, one_mul]
  have husable : isUsable (number (1 + share)) = true := by
    refine Bool.and_eq_true_iff.2 ⟨rfl, decide_eq_true ?_⟩
    rw [Quantity.zero_eq, Quantity.number_lt_number]
    linarith
  show Option.filter isUsable (some ((taught actual).predictCost
    (informed settings others actual).clock neighbor link.metrics).1) = _
  rw [hclock, hprice, Option.filter_some_pos husable]

/-- The report leaves the surroundings alone. -/
theorem toSurroundings_informed (actual : ℝ) :
    (informed settings others actual).toSurroundings = surroundings :=
  toSurroundings_measured settings others

/-- The report leaves the settings alone. -/
theorem settings_informed (actual : ℝ) : (informed settings others actual).settings = settings :=
  Monitor.settings_run _ measuring

/-- The price is twice what is advertised or more. -/
theorem isFine_price {settings : LinkSettings Quantity} (hvalid : settings.violation? = none)
    {share : ℝ} (hshare : 0 ≤ share) :
    isFine settings.fineThreshold (number (1 / 2)) (number (1 + share)) = false := by
  obtain ⟨f, hf, hthreshold⟩ := LinkSettings.fineThreshold_eq hvalid
  have hchange : ¬ number (|1 + share - 1 / 2| / (1 / 2)) < number f := by
    rw [Quantity.number_lt_number, abs_of_nonneg (by linarith), not_lt]
    linarith
  rw [isFine, relativeChange_number (by norm_num), hthreshold, decide_eq_false hchange,
    Bool.and_false]

/-- The table takes a cost of the neighbor. -/
theorem exists_table (actual : ℝ) (cost : Quantity) :
    ∃ table, (informed settings others actual).writtenCost?
      (informed settings others actual).neighbors neighbor cost = some table := by
  unfold MonitorState.writtenCost?
  rw [toSurroundings_informed]
  exact ⟨_, rfl⟩

/-- The cost of the neighbor can be revised. -/
theorem revisable?_informed (actual : ℝ) {link : LinkState Quantity}
    (hlink : (measured settings others).links[neighbor]? = some link)
    (hstatus : link.status = .active) :
    (informed settings others actual).revisable? neighbor =
      some (number (1 / 2), link.metrics) := by
  have hadvertised :
      (informed settings others actual).neighbors.linkCost? neighbor = some (number (1 / 2)) := by
    rw [toSurroundings_informed]
    rfl
  have hlink' : (informed settings others actual).links[neighbor]? = some link := hlink
  unfold MonitorState.revisable?
  rw [hadvertised, hlink']
  simp [hstatus]

/-- The revision writes what the model answers, which is the configured cost and a share of it. -/
theorem writesAnswer (hvalid : settings.violation? = none) {actual share : ℝ} (hshare : 0 ≤ share)
    (hscore : (taught actual).score
      ((taught actual).features surroundings.clock.minuteOfDay neighbor) = number share) :
    (revision settings others actual).WritesAnswer Strategy.learningTransform
      (number (1 + share)) := by
  obtain ⟨link, hlink, hstatus, hconfigured, hhistory⟩ := exists_link settings others
  have hanswer := answer?_revision settings others hconfigured hshare hscore
  have hfinal : (revision settings others actual).final link.metrics = number (1 + share) := by
    rw [Revision.final, hanswer, Option.getD_some]
  obtain ⟨table, htable⟩ := exists_table settings others actual (number (1 + share))
  have hcoarse : isFine (revision settings others actual).monitor.settings.fineThreshold
      (number (1 / 2)) ((revision settings others actual).final link.metrics) = false := by
    rw [hfinal, show (revision settings others actual).monitor.settings = settings from
      settings_informed settings others actual]
    exact isFine_price hvalid hshare
  have hwritten := Revision.written?_of_coarse (r := revision settings others actual)
    (revisable?_informed settings others actual hlink hstatus) hcoarse
  rw [hfinal] at hwritten
  exact ⟨rfl, link, table, hlink, hhistory, hanswer, hwritten.trans (congrArg _ htable)⟩

/-- The hooks are those of a strategy. -/
theorem spareStrategy_hooks : (hooks : Hooks Quantity (HookMemory Quantity τ)).SpareStrategy where
  transform ht := .inr (.inl (Option.some.inj ht).symm)
  feedback hf := .inl (Option.some.inj hf).symm

/-- The steps of the measurement are admitted. -/
theorem admits_measuring :
    ∀ s ∈ (Monitor.idle surroundings settings (⟨none, others⟩ : HookMemory Quantity τ)).steps
      measuring, s.1.Admits (fun _ => 1) s.2 := by
  refine List.forall_mem_cons.2 ⟨?_, List.forall_mem_cons.2 ⟨trivial, List.forall_mem_cons.2
    ⟨trivial, List.forall_mem_singleton.2 trivial⟩⟩⟩
  intro a ha
  obtain rfl := List.mem_singleton.1 (show a ∈ [_] from ha)
  rfl

/-- The steps in which the model learns are admitted. -/
theorem admits_learning (actual : ℝ) :
    ∀ s ∈ (measured settings others).steps (learning others actual),
      s.1.Admits (fun _ => 1) s.2 := by
  have hclock : (measured settings others).clock = surroundings.clock :=
    congrArg (·.clock) (toSurroundings_measured settings others)
  refine List.forall_mem_cons.2 ⟨⟨spareStrategy_hooks, ?_⟩,
    List.forall_mem_singleton.2 ⟨spareStrategy_hooks, ?_⟩⟩
  · have hchange := Monitor.StrategyChange.learning (m := measured settings others) .standard
    rw [hclock] at hchange
    exact hchange
  · have hchange := Monitor.StrategyChange.reported (m := ((measured settings others).apply
      (.setHooks hooks ⟨some (.learning untrained), others⟩))) neighbor (number actual) rfl
    rw [show ((measured settings others).apply
      (.setHooks hooks ⟨some (.learning untrained), others⟩)).clock = surroundings.clock from
        hclock] at hchange
    exact hchange

/-- The neighbor is measured, the model learns, and the cost is updated. -/
noncomputable def run (actual : ℝ) : PricedRun settings others where
  surroundings := surroundings
  configured _ := 1
  ops := measuring ++ learning others actual ++ [.updateCost neighbor (number 1)]
  admitted := by
    intro s hs
    rw [Monitor.steps_append, Monitor.steps_append] at hs
    rcases List.mem_append.1 hs with hs | hs
    · exact (List.mem_append.1 hs).elim (admits_measuring settings others s)
        (admits_learning settings others actual s)
    · obtain rfl := List.mem_singleton.1 hs
      trivial

/-- In the run a price is written that is beyond any cap of less than twice the configured cost. -/
theorem exists_writes (hvalid : settings.violation? = none) {k : ℝ} (hk : 1 ≤ k) (hk' : k < 2) :
    ∃ actual cost, (run settings others actual).Writes Strategy.learningTransform neighbor cost ∧
      ¬ cost ≤ number ((run settings others actual).configured neighbor * k) := by
  obtain ⟨actual, share, hlarge, hscore⟩ := CostModel.exists_score (c := k - 1) (by linarith)
    (by linarith) surroundings.clock neighbor
  refine ⟨actual, number (1 + share), ?_, ?_⟩
  · refine ⟨(informed settings others actual, .updateCost neighbor (number 1)), ?_,
      revision settings others actual, rfl, rfl,
      writesAnswer settings others hvalid (by linarith) hscore⟩
    show _ ∈ (Monitor.idle surroundings settings ⟨none, others⟩).steps
      (measuring ++ learning others actual ++ [.updateCost neighbor (number 1)])
    rw [Monitor.steps_append, run_learning]
    exact List.mem_append_right _ (List.mem_singleton_self _)
  · rw [Quantity.number_le_number, not_le]
    show 1 * k < 1 + share
    linarith

end Overcharged

/-- **Strategies and the cap.** In sound settings the cap is a multiple of the configured cost. A
cost that a run writes on the answer of the load-aware transform, for a neighbor that has been
measured, is within the cap. A cost that it writes on the answer of the learning transform is the
configured cost and a share of it on top, which is within the cap exactly if the multiple leaves
room for the share; and all such costs of all runs are within the cap exactly if the multiple is two
or more. -/
theorem strategies_and_cap {settings : LinkSettings Quantity} (hvalid : settings.violation? = none)
    (others : τ) : ∃ k : ℝ, 1 ≤ k ∧ settings.maxMultiplier = number k ∧
      (∀ (run : PricedRun settings others) n cost,
        run.Writes Strategy.loadAwareTransform n cost → cost ≤ number (run.configured n * k)) ∧
      (∀ (run : PricedRun settings others) n cost, run.Writes Strategy.learningTransform n cost →
        ∃ share, 0 ≤ share ∧ share ≤ 1 ∧ cost = number (run.configured n * (1 + share)) ∧
          (cost ≤ number (run.configured n * k) ↔ 1 + share ≤ k)) ∧
      ((∀ (run : PricedRun settings others) n cost, run.Writes Strategy.learningTransform n cost →
        cost ≤ number (run.configured n * k)) ↔ 2 ≤ k) := by
  obtain ⟨k, hk, hmax⟩ := LinkSettings.maxMultiplier_eq hvalid
  have hlearned : ∀ (run : PricedRun settings others) n cost,
      run.Writes Strategy.learningTransform n cost →
      ∃ share, 0 ≤ share ∧ share ≤ 1 ∧ cost = number (run.configured n * (1 + share)) ∧
        (cost ≤ number (run.configured n * k) ↔ 1 + share ≤ k) := by
    intro run n cost hwrites
    obtain ⟨r, rfl, hcapped, hw⟩ := hwrites.exists_capped hmax
    obtain ⟨share, hlow, hhigh, hpos, rfl⟩ := hcapped.learning_eq hw
    exact ⟨share, hlow, hhigh, rfl, mul_le_mul_iff_right₀ hpos⟩
  refine ⟨k, hk, hmax, ?_, hlearned, ?_, ?_⟩
  · intro run n cost hwrites
    obtain ⟨r, rfl, hcapped, hw⟩ := hwrites.exists_capped hmax
    exact hcapped.loadAware_le hw
  · intro hcap
    -- A report that is bad enough has the model answer more than any smaller cap.
    by_contra hsmall
    obtain ⟨actual, cost, hwrites, hbeyond⟩ :=
      Overcharged.exists_writes settings others hvalid hk (not_le.1 hsmall)
    exact hbeyond (hcap _ _ _ hwrites)
  · intro htwice run n cost hwrites
    obtain ⟨share, -, hhigh, -, hiff⟩ := hlearned run n cost hwrites
    exact hiff.2 (by linarith)

/-- With a cap of a quarter above the configured cost, a run exceeds it. -/
theorem price_beyond_cap : Capped.settings.violation? = none ∧
    ∃ (run : PricedRun Capped.settings ()) (n : Name) (cost : Quantity),
      run.Writes Strategy.learningTransform n cost ∧
      ¬ cost ≤ number (run.configured n * (5 / 4)) := by
  obtain ⟨k, -, hmax, -, -, hcap⟩ := strategies_and_cap Capped.violation?_settings ()
  obtain rfl : 5 / 4 = k := Quantity.number.inj hmax
  have hbeyond := mt hcap.1 (by norm_num)
  push Not at hbeyond
  obtain ⟨run, n, cost, hwrites, hcost⟩ := hbeyond
  exact ⟨Capped.violation?_settings, run, n, cost, hwrites, hcost⟩

end AdaptiveRouting
