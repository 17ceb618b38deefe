import AdaptiveRouting.Proofs.Link.RttCost
import AdaptiveRouting.Proofs.Monitor.Reactivation
import AdaptiveRouting.Proofs.Settings.Checks

/-!
# The costs of links within their bounds

As long as nobody revises the costs, the cost in force on a link is the configured one or the cost
of a round-trip time (`LinkState.PricedByRtt`), in every state of a monitor whose neighbors had
their configured costs when it took them over. What the configuration bounds is therefore the cost
before it is rounded: the cost in force can be above its cap, or below the configured cost, by as
much as rounding adds or takes away (`costs_rounded`).
-/

namespace AdaptiveRouting

open Quantity (number)

/-- The cost in force on a link is the configured one, or the cost of some round-trip time. -/
def LinkState.PricedByRtt (k : ℝ) (l : LinkState Quantity) : Prop :=
  ∃ x, 0 < x ∧ l.configuredCost = number x ∧
    (l.currentCost = number x ∨ ∃ average, l.currentCost = rttCost (number k) (number x) average)

section
variable {k : ℝ} {l l' : LinkState Quantity}

/-- A link that keeps both costs keeps the bound on them. -/
theorem LinkState.PricedByRtt.of_kept (h : l.PricedByRtt k)
    (hconfigured : l'.configuredCost = l.configuredCost)
    (hcurrent : l'.currentCost = l.currentCost) : l'.PricedByRtt k := by
  unfold PricedByRtt
  rw [hconfigured, hcurrent]
  exact h

/-- A link at its configured cost is within the bound. -/
theorem LinkState.PricedByRtt.of_restored (h : l.PricedByRtt k)
    (hconfigured : l'.configuredCost = l.configuredCost)
    (hcurrent : l'.currentCost = l.configuredCost) : l'.PricedByRtt k := by
  obtain ⟨x, hx, hcost, -⟩ := h
  exact ⟨x, hx, hconfigured.trans hcost, .inl (hcurrent.trans hcost)⟩

/-- The cost that is measured on a link. -/
theorem LinkState.PricedByRtt.of_measured (h : l.PricedByRtt k)
    (hconfigured : l'.configuredCost = l.configuredCost)
    (hcurrent : l'.currentCost = l.measuredCost (number k)) : l'.PricedByRtt k := by
  obtain ⟨x, hx, hcost, -⟩ := h
  refine ⟨x, hx, hconfigured.trans hcost, ?_⟩
  rw [hcurrent, measuredCost, hcost]
  cases l.averageRtt? with
  | none => exact .inl rfl
  | some average => exact .inr ⟨average, rfl⟩

/-- News keeps the cost in force or restores the configured one. -/
theorem LinkState.informed_currentCost {α : Type} (l : LinkState α) (settings : LinkSettings α)
    (now : Instant) (e : NeighborEvent) :
    (l.informed settings now e).currentCost = l.currentCost ∨
      (l.informed settings now e).currentCost = l.configuredCost := by
  unfold informed
  split
  · exact .inl rfl
  · exact .inl rfl
  · split <;> exact .inl rfl
  · exact .inl rfl
  · split
    · exact .inl rfl
    · exact .inr rfl

/-- The links all have a configured cost, or the cost of some round-trip time. -/
def PricedByRtt (k : ℝ) (links : NameMap (LinkState Quantity)) : Prop :=
  ∀ (n : Name) l, links[n]? = some l → l.PricedByRtt k

/-- A link within the bound can take its place among others. -/
theorem PricedByRtt.insert {links : NameMap (LinkState Quantity)} {n : Name}
    (h : PricedByRtt k links) (hl : l.PricedByRtt k) : PricedByRtt k (links.insert n l) := by
  intro j l' hj
  rw [Std.ExtTreeMap.getElem?_insert] at hj
  split at hj
  · cases hj
    exact hl
  · exact h j l' hj

end

namespace MonitorState

variable {k : ℝ} {m : MonitorState Quantity} {n : Name}

/-- A request for a rebuild puts no other cost in force. -/
theorem pricedByRtt_trigger {link : LinkState Quantity} (h : PricedByRtt k m.links)
    (hl : link.PricedByRtt k) : PricedByRtt k (m.trigger n link).links := by
  have hlinks := h.insert (n := n) (l := { link with lastTrigger := some m.clock.now })
    (hl.of_kept rfl rfl)
  unfold trigger
  split
  · exact h
  · dsimp only
    split
    · exact hlinks
    · exact hlinks

/-- A cost within the bound can be put in force. -/
theorem pricedByRtt_applyCost {advertised cost : Quantity} (h : PricedByRtt k m.links)
    (hcost : ∀ link, m.links[n]? = some link → { link with currentCost := cost }.PricedByRtt k) :
    PricedByRtt k (m.applyCost n advertised cost).links := by
  unfold applyCost
  split
  · exact h
  · split
    · exact h
    · unfold adoptCost
      dsimp only
      split
      · exact h
      · next link hlink =>
        exact pricedByRtt_trigger (h.insert (hcost link hlink)) (hcost link hlink)

/-- The new cost of a link is its measured one. -/
theorem pricedByRtt_newCost? {cost : Quantity} (h : PricedByRtt k m.links)
    (hk : m.settings.maxMultiplier = number k) (hcost : m.newCost? n = some cost) :
    ∀ link, m.links[n]? = some link → { link with currentCost := cost }.PricedByRtt k := by
  intro link hlink
  rw [newCost?, hlink] at hcost
  dsimp only at hcost
  split at hcost
  · cases hcost
  · cases hcost
    exact (h n link hlink).of_measured rfl (by rw [hk])

/-- News puts no other cost in force than the configured one. -/
theorem pricedByRtt_informed {e : NeighborEvent} {m' : MonitorState Quantity}
    (h : PricedByRtt k m.links) (hm' : Informed m e m') : PricedByRtt k m'.links := by
  intro j l hj
  rw [hm'.link] at hj
  split at hj
  · obtain ⟨l, hl, rfl⟩ := Option.map_eq_some_iff.1 hj
    have hconfigured := l.informed_configuredCost m.settings m.clock.now e
    rcases l.informed_currentCost m.settings m.clock.now e with hcurrent | hcurrent
    · exact (h j l hl).of_kept hconfigured hcurrent
    · exact (h j l hl).of_restored hconfigured hcurrent
  · exact h j l hj

/-- The neighbors of the table have their configured costs, which are positive. -/
def AtConfiguredCosts (m : MonitorState Quantity) : Prop :=
  ∀ a ∈ m.neighbors.toList, ∃ x : ℝ, 0 < x ∧ a.configuredCost = number x ∧ a.linkCost = number x

/-- Neighbors are taken over at their configured costs, or keep the ones they have. -/
theorem pricedByRtt_adoptNeighbors (h : PricedByRtt k m.links) (hm : m.AtConfiguredCosts) :
    PricedByRtt k m.adoptNeighbors.links := by
  intro n link hlink
  rcases of_adoptNeighbors hlink with hold | ⟨a, ha, -, rfl⟩
  · exact h n link hold
  · obtain ⟨x, hx, hconfigured, hcost⟩ := hm a ha
    exact ⟨x, hx, hconfigured, .inl hcost⟩

/-- The answer to a probe does not change a cost by being measured. -/
theorem pricedByRtt_measure (seq : UInt32) (h : PricedByRtt k m.links) :
    PricedByRtt k (m.measure seq).2.links ∧ (m.measure seq).2.settings = m.settings := by
  rcases m.measure_cases seq with ⟨-, hm⟩ | ⟨probe, -, ⟨-, hm⟩ | ⟨rtt, -, hm⟩⟩
  · rw [hm]
    exact ⟨h, rfl⟩
  · rw [hm]
    exact ⟨h, rfl⟩
  · rw [hm]
    refine ⟨?_, rfl⟩
    rcases m.links_recordRtt probe.neighbor rtt with heq | ⟨link, hlink, heq⟩
    · exact heq ▸ h
    · exact heq ▸ h.insert ((h _ _ hlink).of_kept rfl rfl)

end MonitorState

namespace Monitor

variable {σ : Type} {k : ℝ} {m : Monitor Quantity σ} {n : Name}

/-- Costs are not revised by others: no hook transforms them, neighbors are taken over at their
configured costs, and a cost that is applied from outside is the new one by round-trip times. -/
def KeepsToRtt (m : Monitor Quantity σ) : Operation Quantity σ → Prop
  | .adoptNeighbors => m.AtConfiguredCosts
  | .setHooks hooks _ => hooks.transform = none
  | .updateCost neighbor cost => m.newCost? neighbor = some cost
  | _ => True

/-- Without a transform, a cost within the bound is put in force as it is. -/
theorem pricedByRtt_updateCost {cost : Quantity} (h : PricedByRtt k m.links)
    (ht : m.hooks.transform = none)
    (hcost : ∀ link, m.links[n]? = some link → { link with currentCost := cost }.PricedByRtt k) :
    PricedByRtt k (m.updateCost n cost).links := by
  unfold updateCost
  split
  · exact h
  · next advertised metrics _ =>
    have hsame : m.transformed n cost metrics = (cost, m) := by
      unfold transformed
      rw [ht]
    rw [hsame]
    exact MonitorState.pricedByRtt_applyCost h hcost

/-- The cost that a revision comes to is that of a round-trip time. -/
theorem pricedByRtt_reviseCost (x : MonitorState.Measurement Quantity) (h : PricedByRtt k m.links)
    (ht : m.hooks.transform = none) (hk : m.settings.maxMultiplier = number k) :
    PricedByRtt k (m.reviseCost n x).links := by
  unfold reviseCost
  split
  · split
    · exact h
    · next cost hcost =>
      split
      · exact pricedByRtt_updateCost h ht (MonitorState.pricedByRtt_newCost? h hk hcost)
      · exact h
  · exact h

/-- A report of performance touches nothing but what the hooks remember. -/
theorem tellPerformance_eq (m : Monitor Quantity σ) (n : Name)
    (x : MonitorState.Measurement Quantity) :
    ∃ memory, m.tellPerformance n x = { m with memory } := by
  unfold tellPerformance
  split
  · exact ⟨_, rfl⟩
  · split
    · exact ⟨_, rfl⟩
    · exact ⟨_, rfl⟩

/-- The outcome of a probe keeps all costs within the bound. -/
theorem pricedByRtt_outcome (o : ProbeOutcome) (h : PricedByRtt k m.links)
    (ht : m.hooks.transform = none) (hk : m.settings.maxMultiplier = number k) :
    PricedByRtt k (m.handleOutcome o).links := by
  obtain ⟨hlinks, hsettings⟩ := MonitorState.pricedByRtt_measure o.seq h
  unfold handleOutcome
  split
  · unfold handleResponse
    dsimp only
    split
    · exact hlinks
    · next n x _ =>
      obtain ⟨memory, heq⟩ :=
        tellPerformance_eq { m with toMonitorState := (m.measure o.seq).2 } n x
      rw [heq]
      exact pricedByRtt_reviseCost x hlinks ht (hsettings ▸ hk)
  · exact h
  · exact h

/-- No operation puts a cost in force that is not the cost of a round-trip time. -/
theorem pricedByRtt_apply {op : Operation Quantity σ} (h : PricedByRtt k m.links)
    (ht : m.hooks.transform = none) (hk : m.settings.maxMultiplier = number k)
    (hop : m.KeepsToRtt op) : PricedByRtt k (m.apply op).links := by
  -- Costs are put in force by outcomes, by hand, by news and by stopping; all else leaves the
  -- links.
  cases op with
  | adoptNeighbors => exact MonitorState.pricedByRtt_adoptNeighbors h hop
  | outcome o => exact pricedByRtt_outcome o h ht hk
  | news e => exact MonitorState.pricedByRtt_informed h (m.informed_handleNews e)
  | updateCost n cost =>
    exact pricedByRtt_updateCost h ht (MonitorState.pricedByRtt_newCost? h hk hop)
  | stop =>
    show PricedByRtt k m.stop.links
    unfold MonitorState.stop
    split
    · intro n l hl
      rw [Std.ExtTreeMap.getElem?_map] at hl
      obtain ⟨link, hlink, rfl⟩ := Option.map_eq_some_iff.1 hl
      exact (h n link hlink).of_restored rfl rfl
    · exact h
  | start =>
    show PricedByRtt k m.start.links
    unfold MonitorState.start
    split
    · exact h
    · exact h
  | poll => exact m.probingDiffers_poll.links ▸ h
  | scheduleProbe n => exact (m.timersDiffer_scheduleProbe n).links ▸ h
  | sendProbe n =>
    show PricedByRtt k (m.sendProbe n).2.links
    rcases m.sendProbe_cases n with heq | heq <;> rw [heq] <;> exact h
  | report =>
    obtain ⟨_, heq⟩ := m.report_eq
    show PricedByRtt k m.report.links
    rw [heq]
    exact h
  | setHooks hooks memory | advance elapsed | surround change => exact h

/-- No operation that keeps to round-trip times sets a transform. -/
theorem transform_apply {op : Operation Quantity σ} (ht : m.hooks.transform = none)
    (hop : m.KeepsToRtt op) : (m.apply op).hooks.transform = none := by
  refine hooks_apply (P := fun hooks => hooks.transform = none) ht fun hooks memory heq => ?_
  subst heq
  exact hop

/-- A run that keeps to round-trip times keeps all costs within the bound. -/
theorem pricedByRtt_run {ops : List (Operation Quantity σ)} (h : PricedByRtt k m.links)
    (ht : m.hooks.transform = none) (hk : m.settings.maxMultiplier = number k)
    (hops : ∀ s ∈ m.steps ops, s.1.KeepsToRtt s.2) : PricedByRtt k (m.run ops).links := by
  refine (run_keeps (P := fun m => PricedByRtt k m.links ∧ m.hooks.transform = none ∧
    m.settings.maxMultiplier = number k) ⟨h, ht, hk⟩ fun s hs ⟨h, ht, hk⟩ => ?_).1
  have hop := hops s hs
  exact ⟨pricedByRtt_apply h ht hk hop, transform_apply ht hop, (s.1.settings_apply s.2).symm ▸ hk⟩

end Monitor

/-- Sound settings let costs grow by a factor of at least one. -/
theorem LinkSettings.maxMultiplier_eq {settings : LinkSettings Quantity}
    (h : settings.violation? = none) : ∃ k : ℝ, 1 ≤ k ∧ settings.maxMultiplier = number k := by
  have hle := (violation?_eq_none_iff.1 h).maxMultiplier
  rw [Quantity.one_eq] at hle
  cases hk : settings.maxMultiplier with
  | number k => exact ⟨k, by simpa [hk] using hle, rfl⟩
  | undefined => simp [hk] at hle

/-- **Costs by round-trip times are within their bounds but for being rounded.** Under sound
settings the new cost of a link is its configured cost, if it has no round-trip times, or the whole
number next to a cost between the configured one and the greatest multiple of it; and while nobody
else revises costs the same is true of the cost in force on every link of every state. The rounded
cost itself is within the bounds exactly where `RoundedWithin` says. -/
theorem costs_rounded {settings : LinkSettings Quantity} (hvalid : settings.violation? = none) :
    ∃ k : ℝ, 1 ≤ k ∧ settings.maxMultiplier = number k ∧
    (∀ (m : MonitorState Quantity) (n : Name) (link : LinkState Quantity) (x : ℝ) (cost : Quantity),
      m.settings = settings → m.links[n]? = some link → link.configuredCost = number x → 0 < x →
      m.newCost? n = some cost →
        link.averageRtt? = none ∧ cost = number x ∨
        ∃ average, link.averageRtt? = some average ∧
          RoundedWithin x (x * k) (exactCost k x average) cost) ∧
    ∀ (σ : Type) (surroundings : Surroundings Quantity) (memory : σ)
      (ops : List (Operation Quantity σ)),
      (∀ s ∈ (Monitor.idle surroundings settings memory).steps ops, s.1.KeepsToRtt s.2) →
      ∀ (n : Name) (link : LinkState Quantity),
        ((Monitor.idle surroundings settings memory).run ops).links[n]? = some link →
        ∃ x, 0 < x ∧ link.configuredCost = number x ∧
          (link.currentCost = number x ∨
            ∃ average, RoundedWithin x (x * k) (exactCost k x average) link.currentCost) := by
  obtain ⟨k, hk, hmax⟩ := LinkSettings.maxMultiplier_eq hvalid
  refine ⟨k, hk, hmax, fun m n link x cost hm hlink hx hpos hcost => ?_,
    fun σ surroundings memory ops hops n link hlink => ?_⟩
  · rw [MonitorState.newCost?, hlink] at hcost
    dsimp only at hcost
    split at hcost
    · cases hcost
    · cases hcost
      rw [LinkState.measuredCost, hm, hmax, hx]
      cases link.averageRtt? with
      | none => exact .inl ⟨rfl, rfl⟩
      | some average => exact .inr ⟨average, rfl, roundedWithin_rttCost hpos.le hk average⟩
  · have hstart : PricedByRtt k (Monitor.idle surroundings settings memory).links := by
      intro n l hl
      simp [Monitor.idle, MonitorState.idle] at hl
    obtain ⟨x, hx, hconfigured, hcurrent⟩ :=
      Monitor.pricedByRtt_run hstart rfl hmax hops n link hlink
    refine ⟨x, hx, hconfigured, hcurrent.imp_right ?_⟩
    rintro ⟨average, hcost⟩
    rw [hcost]
    exact ⟨average, roundedWithin_rttCost hx.le hk average⟩

namespace Capped

/-- The name of the neighbor is proper. -/
theorem proper_neighbor : ∀ c ∈ ["b"], IsComponent c := by decide

/-- A neighbor at a cost of 10. -/
def neighbor : Name := { components := ["b"], proper := proper_neighbor }

/-- Costs may be a quarter above the configured ones. -/
noncomputable def settings : LinkSettings Quantity :=
  { LinkSettings.standard with maxMultiplier := number ((5 : ℕ) / (4 : ℕ)) }

/-- The settings break no rule. -/
theorem violation?_settings : settings.violation? = none := by
  have hmax : (1.0 : Quantity) ≤ number (5 / 4) := by
    rw [Quantity.one_eq, Quantity.number_le_number]
    norm_num
  have hchange : 0.0 < (0.1 : Quantity) ∧ (0.1 : Quantity) ≤ 1.0 := by
    simp only [Quantity.ofScientific_eq, Quantity.number_lt_number, Quantity.number_le_number]
    norm_num
  have hfine : 0.0 < (0.05 : Quantity) ∧ (0.05 : Quantity) ≤ 1.0 := by
    simp only [Quantity.ofScientific_eq, Quantity.number_lt_number, Quantity.number_le_number]
    norm_num
  exact LinkSettings.violation?_eq_none_iff.2
    ⟨hmax, hchange, hfine, by decide, by decide, by decide, by decide⟩

noncomputable def surroundings : Surroundings Quantity :=
  { (Surroundings.quiet : Surroundings Quantity) with
    neighbors := .ofList [⟨neighbor, .active, number (10 : ℕ), number (10 : ℕ), 0⟩] }

/-- The link has been measured at 50 ms three times. -/
noncomputable def link : LinkState Quantity :=
  { LinkState.configured neighbor .active (number (10 : ℕ)) (number (10 : ℕ)) 0 0 50 with
    history := [50000000, 50000000, 50000000] }

noncomputable def state : MonitorState Quantity :=
  { MonitorState.idle surroundings settings with links := (∅ : NameMap _).insert neighbor link }

/-- The cost is cut down to 12.5 and then rounded to 13. -/
theorem costs_rounded_up : settings.violation? = none ∧
    (∃ cost, state.newCost? neighbor = some cost ∧
      cost = number 13 ∧ ¬ cost ≤ number (10 * (5 / 4))) ∧
    ∃ link', ((Monitor.idle surroundings settings ()).run [.adoptNeighbors]).links[neighbor]? =
        some link' ∧
      ∃ x, 0 < x ∧ link'.configuredCost = number x ∧ (link'.currentCost = number x ∨
        ∃ average, RoundedWithin x (x * (5 / 4)) (exactCost (5 / 4) x average)
          link'.currentCost) := by
  obtain ⟨k, hk, hmax, hnew, hrun⟩ := costs_rounded violation?_settings
  obtain rfl : k = 5 / 4 := (Quantity.number.inj hmax).symm
  refine ⟨violation?_settings, ?_, ?_⟩
  · obtain ⟨cost, hcost⟩ : ∃ cost, state.newCost? neighbor = some cost := ⟨_, rfl⟩
    refine ⟨cost, hcost, ?_⟩
    rcases hnew state neighbor link 10 cost rfl rfl rfl (by norm_num) hcost with
      ⟨hnone, -⟩ | ⟨average, haverage, hrounded⟩
    · cases hnone
    · obtain rfl : 50000000 = average := Option.some.inj haverage
      have hexact : exactCost (5 / 4) 10 50000000 = 10 * (5 / 4) := by
        refine min_eq_right (mul_le_mul_of_nonneg_left ?_ (by norm_num))
        have hlog := Real.one_sub_inv_le_log_of_pos (x := 3 / 2) (by norm_num)
        norm_num at hlog ⊢
        linarith
      rw [hexact] at hrounded
      refine ⟨?_, ?_⟩
      · rw [hrounded.eq_nearest, Quantity.nearest_eq_floor (by norm_num)]
        norm_num
      · rw [hrounded.le_number_high_iff]
        norm_num
  · obtain ⟨link', hlink'⟩ : ∃ link',
        ((Monitor.idle surroundings settings ()).run [.adoptNeighbors]).links[neighbor]? =
          some link' := ⟨_, rfl⟩
    refine ⟨link', hlink', hrun Unit surroundings () [.adoptNeighbors] ?_ neighbor link' hlink'⟩
    intro s hs
    obtain rfl := List.mem_singleton.1 hs
    intro a ha
    obtain rfl := List.mem_singleton.1 (show a ∈ [_] from ha)
    exact ⟨10, by norm_num, rfl, rfl⟩

end Capped

end AdaptiveRouting
