import AdaptiveRouting.Proofs.Monitor.CostBounds
import AdaptiveRouting.Proofs.Time.Averages

/-!
# Slower links cost no less

The cost of a link that is computed from its round-trip times does not fall when these grow, all of
them or their average: what the average loses to its integer quotient, what is cut off below a
millisecond, the cap and the rounding at the end all keep the order of costs
(`LinkState.measuredCost_mono`). So of two active links that are configured to cost the same the
slower one is not the cheaper one, and one more round-trip time that is not below the average does
not make a link cheaper (`slower_never_cheaper`), as long as no older one has to make room for it.
-/

namespace AdaptiveRouting

open Quantity (number)

/-- As long as there is room, a round-trip time is appended and none forgotten. -/
theorem LinkState.history_record_of_room {α : Type} {l : LinkState α} (rtt : Duration)
    (h : l.history.length < l.capacity) : (l.record rtt).history = l.history ++ [rtt] := by
  unfold record
  dsimp only
  rw [if_neg (Nat.not_le.2 h)]

/-- The measured costs of two links are in the order of their average round-trip times. -/
theorem LinkState.measuredCost_mono {k : ℝ} {l l' : LinkState Quantity}
    {average average' : Duration} (hconfigured : 0.0 ≤ l.configuredCost)
    (hsame : l'.configuredCost = l.configuredCost) (haverage : l.averageRtt? = some average)
    (haverage' : l'.averageRtt? = some average') (hle : average ≤ average') :
    l.measuredCost (number k) ≤ l'.measuredCost (number k) := by
  obtain ⟨x, hx, hcost⟩ := Quantity.zero_le_iff.1 hconfigured
  have hl : l.measuredCost (number k) = rttCost (number k) (number x) average := by
    rw [measuredCost, haverage, hcost]
  have hl' : l'.measuredCost (number k) = rttCost (number k) (number x) average' := by
    rw [measuredCost, haverage', hsame, hcost]
  rw [hl, hl']
  exact rttCost_mono hx hle

namespace MonitorState

/-- The new cost of an active neighbor is the measured one. -/
theorem newCost?_of_active {α : Type} [Scalar α] {m : MonitorState α} {n : Name} {l : LinkState α}
    (hlink : m.links[n]? = some l) (hactive : l.status = .active) :
    m.newCost? n = some (l.measuredCost m.settings.maxMultiplier) := by
  rw [newCost?, hlink]
  exact if_neg (by simp [hactive])

/-- The link that is updated is there afterwards, in its new form. -/
theorem getElem?_updateLink {α : Type} {m : MonitorState α} {n : Name} {l : LinkState α}
    (hlink : m.links[n]? = some l) (f : LinkState α → LinkState α) :
    (m.updateLink n f).links[n]? = some (f l) := by
  rw [updateLink, Std.ExtTreeMap.getElem?_modify_self, hlink]
  rfl

end MonitorState

/-- **A slower link is never the cheaper one.** Under sound settings an active link that is not
configured to cost less than nothing and has some round-trip times has a new cost. It is at most the
one of any active link that is configured to cost the same and has as many round-trip times, each at
least as long; and at most the link's own new cost after one more round-trip time is recorded that
is not below the average, if there is room for it. -/
theorem slower_never_cheaper {m : MonitorState Quantity} (hvalid : m.settings.violation? = none)
    {n : Name} {l : LinkState Quantity} (hlink : m.links[n]? = some l)
    (hactive : l.status = .active) (hconfigured : 0.0 ≤ l.configuredCost) (hne : l.history ≠ []) :
    ∃ cost, m.newCost? n = some cost ∧
      (∀ (m' : MonitorState Quantity) (n' : Name) (l' : LinkState Quantity),
        m'.settings = m.settings → m'.links[n']? = some l' → l'.status = .active →
        l'.configuredCost = l.configuredCost → List.Forall₂ (· ≤ ·) l.history l'.history →
          ∃ cost', m'.newCost? n' = some cost' ∧ cost ≤ cost') ∧
      ∀ rtt average, l.averageRtt? = some average → average ≤ rtt →
        l.history.length < l.capacity →
          ∃ cost', (m.updateLink n (·.record rtt)).newCost? n = some cost' ∧ cost ≤ cost' := by
  obtain ⟨k, -, hk⟩ := LinkSettings.maxMultiplier_eq hvalid
  -- In both comparisons the configured costs are the same, so all depends on the averages.
  refine ⟨_, MonitorState.newCost?_of_active hlink hactive, ?_, ?_⟩
  · intro m' n' l' hsettings hlink' hactive' hsame hslower
    obtain ⟨average, average', haverage, haverage', hle⟩ := Duration.average?_mono hne hslower
    refine ⟨_, MonitorState.newCost?_of_active hlink' hactive', ?_⟩
    rw [hsettings, hk]
    exact LinkState.measuredCost_mono hconfigured hsame haverage haverage' hle
  · intro rtt average haverage hrtt hroom
    obtain ⟨average', haverage', hle⟩ := Duration.average?_concat haverage hrtt
    have hrecorded : (l.record rtt).averageRtt? = some average' := by
      rw [LinkState.averageRtt?, LinkState.history_record_of_room rtt hroom, haverage']
    have hlink' := MonitorState.getElem?_updateLink hlink (·.record rtt)
    refine ⟨_, MonitorState.newCost?_of_active hlink' hactive, ?_⟩
    show _ ≤ (l.record rtt).measuredCost m.settings.maxMultiplier
    rw [hk]
    exact LinkState.measuredCost_mono hconfigured rfl haverage hrecorded hle

namespace TwoLinks

open Capped (neighbor settings surroundings violation?_settings)

/-- The link to the nearer neighbor. -/
noncomputable def short : LinkState Quantity :=
  { LinkState.configured neighbor .active (number (10 : ℕ)) (number (10 : ℕ)) 0 0 50 with
    history := [.ofMillis 10, .ofMillis 21] }

/-- The link to the other one, which is configured to cost the same. -/
noncomputable def long : LinkState Quantity :=
  { LinkState.configured .distant .active (number (10 : ℕ)) (number (14 : ℕ)) 1 0 50 with
    history := [.ofMillis 10, .ofMillis 900] }

noncomputable def state : MonitorState Quantity :=
  { MonitorState.idle surroundings settings with
    links := ((∅ : NameMap _).insert neighbor short).insert .distant long }

/-- The average of 15.5 ms counts as 15 ms; the longer link and another 16 ms cost no less. -/
theorem slower_never_cheaper_of_two : state.settings.violation? = none ∧
    state.links[neighbor]? = some short ∧ state.links[Name.distant]? = some long ∧
    0.0 ≤ short.configuredCost ∧ long.configuredCost = short.configuredCost ∧
    List.Forall₂ (· ≤ ·) short.history long.history ∧
    short.averageRtt? = some 15500000 ∧ 15500000 ≤ Duration.ofMillis 16 ∧
    ∃ cost cost' later, state.newCost? neighbor = some cost ∧ state.newCost? .distant = some cost' ∧
      (state.updateLink neighbor (·.record (.ofMillis 16))).newCost? neighbor = some later ∧
      cost ≤ cost' ∧ cost ≤ later := by
  have hshort : state.links[neighbor]? = some short := rfl
  have hlong : state.links[Name.distant]? = some long := rfl
  have hconfigured : 0.0 ≤ short.configuredCost :=
    Quantity.zero_le_iff.2 ⟨10, by norm_num, rfl⟩
  have hslower : List.Forall₂ (· ≤ ·) short.history long.history :=
    .cons (by decide) (.cons (by decide) .nil)
  have hrtt : (15500000 : Duration) ≤ Duration.ofMillis 16 := by decide
  obtain ⟨cost, hcost, hothers, hlater⟩ := slower_never_cheaper (m := state) violation?_settings
    hshort rfl hconfigured (List.cons_ne_nil _ _)
  obtain ⟨cost', hcost', hle⟩ := hothers state .distant long rfl hlong rfl rfl hslower
  obtain ⟨later, hnew, hle'⟩ := hlater (.ofMillis 16) 15500000 rfl hrtt (by decide)
  exact ⟨violation?_settings, hshort, hlong, hconfigured, rfl, hslower, rfl, hrtt,
    cost, cost', later, hcost, hcost', hnew, hle, hle'⟩

end TwoLinks

end AdaptiveRouting
