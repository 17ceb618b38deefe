import AdaptiveRouting.Proofs.Monitor.CostBounds
import AdaptiveRouting.Proofs.Monitor.CostWrites
import Mathlib.Data.List.Induction

/-!
# Requests for a rebuild

A cost that is written asks for a rebuild of the own advertisement and for a calculation, unless its
neighbor has caused such a request within the trigger interval. What the monitor keeps in mind for
this is one instant for each neighbor (`MonitorState.lastTrigger?`). It is the time of the last
request that the neighbor has caused (`Monitor.Remembers`), since the costs that answers to probes
lead to are costs of stable links, for which the instant is noted exactly if the request is made.
Neither news of neighbors nor a stop touches it.

So the history of the requests of a neighbor decides whether it causes another one, whatever other
neighbors do (`rebuilds_rate_limited`).
-/

namespace AdaptiveRouting

open Quantity (number)

variable {α σ : Type}

namespace MonitorState

variable {m m' m'' : MonitorState α} {n : Name}

/-- When a neighbor last caused a request, as far as is noted. -/
def lastTrigger? (m : MonitorState α) (n : Name) : Option Instant :=
  (m.links[n]?.map (·.lastTrigger)).join

/-- When a neighbor last caused a request is noted in its link. -/
theorem lastTrigger?_of_link {link : LinkState α} (h : m.links[n]? = some link) :
    m.lastTrigger? n = link.lastTrigger := by
  rw [lastTrigger?, h, Option.map_some, Option.join_some]

/-- Between the two states nothing is requested on account of a neighbor. -/
structure AsksNothing (m m' : MonitorState α) : Prop where
  rebuild : m'.rebuild = m.rebuild
  schedule : m'.schedule = m.schedule
  costUpdates : m'.stats.costUpdates = m.stats.costUpdates
  last (k : Name) : m'.lastTrigger? k = m.lastTrigger? k

/-- Between the two states a rebuild and a calculation are requested, once, on account of a
neighbor. -/
structure AsksFor (m : MonitorState α) (n : Name) (m' : MonitorState α) : Prop where
  rebuild : m'.rebuild = m.rebuild.request
  schedule : m'.schedule = m.schedule.request m.clock.now
  costUpdates : m'.stats.costUpdates = m.stats.costUpdates + 1
  last (k : Name) : m'.lastTrigger? k = if k = n then some m.clock.now else m.lastTrigger? k

/-- A neighbor has caused a request that is too recent for another one. -/
def IsLimited (m : MonitorState α) (n : Name) : Prop :=
  ∃ last ∈ m.lastTrigger? n, m.clock.now - last < m.settings.triggerInterval

/-- Between a state and itself nothing is requested. -/
theorem AsksNothing.refl (m : MonitorState α) : AsksNothing m m := ⟨rfl, rfl, rfl, fun _ => rfl⟩

/-- The rate limit applies to a link exactly if its last request is too recent. -/
theorem isRateLimited_iff {link : LinkState α} (h : m.links[n]? = some link) :
    m.isRateLimited link = true ↔ m.IsLimited n := by
  unfold isRateLimited IsLimited
  rw [lastTrigger?_of_link h]
  cases link.lastTrigger <;> simp

/-- The link of a neighbor that is replaced by one with the same note. -/
theorem lastTrigger?_insert {link link' : LinkState α} (h : m.links[n]? = some link)
    (hm' : m'.links = m.links.insert n link') (hlast : link'.lastTrigger = link.lastTrigger)
    (k : Name) : m'.lastTrigger? k = m.lastTrigger? k := by
  unfold lastTrigger?
  rw [hm', Std.ExtTreeMap.getElem?_insert]
  split
  · next hk =>
    obtain rfl := Std.LawfulEqCmp.eq_of_compare hk
    rw [h, Option.map_some, Option.map_some, hlast]
  · rfl

/-- Nothing is requested before a request is made at the same time. -/
theorem AsksNothing.trans_asksFor (h : AsksNothing m m') (hnow : m'.clock.now = m.clock.now)
    (h' : AsksFor m' n m'') : AsksFor m n m'' where
  rebuild := h.rebuild ▸ h'.rebuild
  schedule := h.schedule ▸ hnow ▸ h'.schedule
  costUpdates := h.costUpdates ▸ h'.costUpdates
  last k := by rw [h'.last, hnow, h.last]

/-- Two steps that request nothing request nothing together. -/
theorem AsksNothing.trans (h : AsksNothing m m') (h' : AsksNothing m' m'') : AsksNothing m m'' where
  rebuild := h'.rebuild.trans h.rebuild
  schedule := h'.schedule.trans h.schedule
  costUpdates := h'.costUpdates.trans h.costUpdates
  last k := (h'.last k).trans (h.last k)

/-- Between the two states a neighbor causes a request if none that it has caused is too recent, and
nothing is requested otherwise. -/
def AsksIfAllowed (m : MonitorState α) (n : Name) (m' : MonitorState α) : Prop :=
  m.IsLimited n ∧ AsksNothing m m' ∨ ¬ m.IsLimited n ∧ AsksFor m n m'

/-- A step that requests nothing can precede one that does. -/
theorem AsksNothing.trans_asksIfAllowed (h : AsksNothing m m') (hnow : m'.clock.now = m.clock.now)
    (hsettings : m'.settings = m.settings) (h' : AsksIfAllowed m' n m'') :
    AsksIfAllowed m n m'' := by
  have hlimited : m'.IsLimited n ↔ m.IsLimited n := by
    unfold IsLimited
    rw [h.last, hnow, hsettings]
  rcases h' with ⟨hl, hnothing⟩ | ⟨hl, hasks⟩
  · exact .inl ⟨hlimited.1 hl, h.trans hnothing⟩
  · exact .inr ⟨mt hlimited.2 hl, h.trans_asksFor hnow hasks⟩

/-- What is requested on account of a link without timeouts. -/
theorem asksIfAllowed_trigger {link : LinkState α} (hlink : m.links[n]? = some link)
    (hstable : link.timeouts = 0) : AsksIfAllowed m n (m.trigger n link) := by
  unfold trigger
  split
  · next hlimited => exact .inl ⟨(isRateLimited_iff hlink).1 hlimited, .refl m⟩
  · next hlimited =>
    refine .inr ⟨mt (isRateLimited_iff hlink).2 hlimited, ?_⟩
    refine ⟨rfl, rfl, rfl, ?_⟩
    intro k
    unfold lastTrigger?
    rw [Std.ExtTreeMap.getElem?_insert]
    by_cases hk : n = k
    · simp [hk]
    · simp [hk, Ne.symm hk]

/-- What is requested when the cost of such a link is put in force. -/
theorem asksIfAllowed_adoptCost {link : LinkState α} (hlink : m.links[n]? = some link)
    (hstable : link.timeouts = 0) (cost : α) : AsksIfAllowed m n (m.adoptCost n cost) := by
  unfold adoptCost
  rw [hlink]
  dsimp only
  have hadopted : AsksNothing m
      { m with links := m.links.insert n { link with currentCost := cost } } :=
    ⟨rfl, rfl, rfl, lastTrigger?_insert hlink rfl rfl⟩
  exact hadopted.trans_asksIfAllowed rfl rfl
    (asksIfAllowed_trigger Std.ExtTreeMap.getElem?_insert_self hstable)

/-- To take the outcome of a probe requests nothing. -/
theorem asksNothing_take (m : MonitorState α) (o : ProbeOutcome) : AsksNothing m (m.take o) := by
  have hlast : ∀ k, (m.take o).lastTrigger? k = m.lastTrigger? k := by
    intro k
    exact congrArg Option.join (m.map_take o (·.lastTrigger) (fun _ _ => rfl) k)
  obtain ⟨_, _, _, heq⟩ := m.take_eq o
  rw [heq] at hlast ⊢
  exact ⟨rfl, rfl, rfl, hlast⟩

end MonitorState

/-- News does not change when a link last caused a request. -/
theorem LinkState.informed_lastTrigger (l : LinkState α) (settings : LinkSettings α)
    (now : Instant) (e : NeighborEvent) :
    (l.informed settings now e).lastTrigger = l.lastTrigger := by
  unfold informed
  split
  · rfl
  · rfl
  · split <;> rfl
  · rfl
  · split <;> rfl

/-- News of a neighbor requests nothing. -/
theorem MonitorState.asksNothing_handleNews (m : MonitorState α) (e : NeighborEvent) :
    AsksNothing m (m.handleNews e) := by
  have hinformed := m.informed_handleNews e
  have hlast : ∀ k, (m.handleNews e).lastTrigger? k = m.lastTrigger? k := by
    intro k
    rw [lastTrigger?, hinformed.link]
    split
    · rw [Option.map_map]
      exact congrArg Option.join (congrArg (fun f => Option.map f _)
        (funext fun l => l.informed_lastTrigger m.settings m.clock.now e))
    · rfl
  obtain ⟨_, _, _, _, _, _, heq⟩ := hinformed.rest
  rw [heq] at hlast ⊢
  exact ⟨rfl, rfl, rfl, hlast⟩

namespace Monitor

variable [Scalar α] {m : Monitor α σ} {op : Operation α σ} {n : Name}

/-- The neighbor whose cost an operation writes, with the cost. -/
def written? (m : Monitor α σ) (op : Operation α σ) : Option (Name × α) :=
  (m.revision? op).bind fun r => r.written?.map fun w => (r.neighbor, w.1)

/-- A cost that an outcome leads to is in force and in the table, and causes a request if it may. -/
theorem of_written?_outcome {o : ProbeOutcome} {cost : α}
    (h : m.written? (.outcome o) = some (n, cost)) :
    (m.apply (.outcome o)).currentCost? n = some cost ∧
    (m.apply (.outcome o)).neighbors.linkCost? n = some cost ∧
    MonitorState.AsksIfAllowed m.toMonitorState n (m.apply (.outcome o)).toMonitorState := by
  obtain ⟨r, hr, hwritten⟩ := Option.bind_eq_some_iff.1 h
  obtain ⟨⟨cost', neighbors⟩, hw, heq⟩ := Option.map_eq_some_iff.1 hwritten
  cases heq
  obtain ⟨hcurrent, htable⟩ := Revision.costs_of_written hw
  rw [apply_of_revision? hr]
  refine ⟨hcurrent, htable, ?_⟩
  obtain ⟨htaken, link, hlink, hstable⟩ := stable_of_revision? hr
  obtain ⟨-, htimeouts⟩ : link.status = .active ∧ link.timeouts = 0 := by
    simpa [LinkState.isStable] using hstable
  -- Taking in the answer requests nothing; the cost that it leads to may.
  have hnothing := m.asksNothing_take o
  obtain ⟨_, _, _, htake⟩ := m.take_eq o
  have hkept : (m.take o).clock = m.clock ∧ (m.take o).settings = m.settings := by
    rw [htake]
    exact ⟨rfl, rfl⟩
  rw [← htaken] at hnothing hkept
  let priced : MonitorState α := { r.monitor.toMonitorState with neighbors }
  have hpriced : MonitorState.AsksNothing r.monitor.toMonitorState priced :=
    ⟨rfl, rfl, rfl, fun _ => rfl⟩
  have hlink' : priced.links[r.neighbor]? = some link := hlink
  rw [Revision.result_of_written hw]
  exact (hnothing.trans hpriced).trans_asksIfAllowed (congrArg (·.now) hkept.1) hkept.2
    (MonitorState.asksIfAllowed_adoptCost hlink' htimeouts cost')

/-! ## One operation -/

/-- An outcome that writes no cost is taken, and that is all. -/
theorem toMonitorState_outcome_of_unwritten {o : ProbeOutcome}
    (h : m.written? (.outcome o) = none) :
    (m.apply (.outcome o)).toMonitorState = m.take o := by
  cases hr : m.revision? (.outcome o) with
  | none => exact apply_of_unrevised hr
  | some r =>
    rw [written?, hr, Option.bind_some, Option.map_eq_none_iff] at h
    rw [apply_of_revision? hr, Revision.result_of_unwritten h, (stable_of_revision? hr).1]

/-- Where no cost is written, nothing is requested. -/
theorem asksNothing_apply (h : m.written? op = none) (hadopt : op ≠ .adoptNeighbors)
    (hstop : op ≠ .stop) (hothers : ∀ change, op ≠ .surround change) :
    MonitorState.AsksNothing m.toMonitorState (m.apply op).toMonitorState := by
  -- Requests come of costs that are put in force, and here none is written.
  cases op with
  | adoptNeighbors => exact absurd rfl hadopt
  | stop => exact absurd rfl hstop
  | surround change => exact absurd rfl (hothers change)
  | start =>
    show MonitorState.AsksNothing _ m.start
    unfold MonitorState.start
    split
    · exact .refl _
    · exact ⟨rfl, rfl, rfl, fun _ => rfl⟩
  | poll =>
    obtain ⟨_, _, _, _, _, _, _, heq⟩ := m.probingDiffers_poll
    show MonitorState.AsksNothing _ m.poll
    rw [heq]
    exact ⟨rfl, rfl, rfl, fun _ => rfl⟩
  | scheduleProbe k =>
    obtain ⟨_, _, _, heq⟩ := m.timersDiffer_scheduleProbe k
    show MonitorState.AsksNothing _ (m.scheduleProbe k)
    rw [heq]
    exact ⟨rfl, rfl, rfl, fun _ => rfl⟩
  | sendProbe k =>
    show MonitorState.AsksNothing _ (m.sendProbe k).2
    rcases m.sendProbe_cases k with heq | heq <;> rw [heq] <;> exact ⟨rfl, rfl, rfl, fun _ => rfl⟩
  | outcome o =>
    rw [toMonitorState_outcome_of_unwritten h]
    exact m.asksNothing_take o
  | news e =>
    exact m.asksNothing_handleNews e
  | updateCost k cost =>
    rw [written?, revision?, Option.bind_some, Option.map_eq_none_iff] at h
    show MonitorState.AsksNothing _ (m.updateCost k cost).toMonitorState
    have hsame := Revision.result_of_unwritten h
    rw [show m.updateCost k cost = Revision.result ⟨m, k, cost⟩ from rfl, hsame]
    exact .refl _
  | report =>
    obtain ⟨_, heq⟩ := m.report_eq
    show MonitorState.AsksNothing _ m.report
    rw [heq]
    exact ⟨rfl, rfl, rfl, fun _ => rfl⟩
  | setHooks hooks memory => exact .refl _
  | advance elapsed => exact ⟨rfl, rfl, rfl, fun _ => rfl⟩

/-- Where no cost is written, no request on account of a neighbor is counted or noted. -/
theorem keepsNotes_apply (h : m.written? op = none) (hadopt : op ≠ .adoptNeighbors) :
    (m.apply op).stats.costUpdates = m.stats.costUpdates ∧
      ∀ k, (m.apply op).lastTrigger? k = m.lastTrigger? k := by
  cases op with
  | adoptNeighbors => exact absurd rfl hadopt
  | surround change => exact ⟨rfl, fun _ => rfl⟩
  | stop =>
    show m.stop.stats.costUpdates = _ ∧ ∀ k, m.stop.lastTrigger? k = _
    unfold MonitorState.stop
    split
    · refine ⟨rfl, ?_⟩
      intro k
      unfold MonitorState.lastTrigger?
      rw [Std.ExtTreeMap.getElem?_map, Option.map_map]
      rfl
    · exact ⟨rfl, fun _ => rfl⟩
  | _ =>
    have hnothing := asksNothing_apply h (by simp) (by simp) (by simp)
    exact ⟨hnothing.costUpdates, hnothing.last⟩

/-- Where no cost is written, a rebuild is requested when an active monitor is stopped, and only
then. -/
theorem requests_apply_of_unwritten (h : m.written? op = none) (hadopt : op ≠ .adoptNeighbors)
    (hothers : ∀ change, op ≠ .surround change) :
    (m.apply op).schedule = m.schedule ∧ (op = .stop ∧ m.active = true ∧
        (m.apply op).rebuild = m.rebuild.request ∨
      ¬ (op = .stop ∧ m.active = true) ∧ (m.apply op).rebuild = m.rebuild) := by
  by_cases hstop : op = .stop
  · subst hstop
    show m.stop.schedule = _ ∧ (_ ∧ _ ∧ m.stop.rebuild = _ ∨ _ ∧ m.stop.rebuild = _)
    unfold MonitorState.stop
    split
    · next ha => exact ⟨rfl, .inl ⟨rfl, ha, rfl⟩⟩
    · next ha => exact ⟨rfl, .inr ⟨fun hactive => ha hactive.2, rfl⟩⟩
  · have hnothing := asksNothing_apply h hadopt hstop hothers
    exact ⟨hnothing.schedule, .inr ⟨fun hactive => hstop hactive.1, hnothing.rebuild⟩⟩

/-! ## The history of requests -/

/-- The neighbor on whose account an operation requests a rebuild. -/
def asker? (m : Monitor α σ) (op : Operation α σ) : Option Name :=
  (m.written? op).bind fun w => if (m.apply op).rebuild = m.rebuild then none else some w.1

/-- When a run requested rebuilds on account of a neighbor. -/
def requestTimes (m : Monitor α σ) (ops : List (Operation α σ)) (n : Name) : List Instant :=
  ((m.steps ops).filter fun s => s.1.asker? s.2 = some n).map (·.1.clock.now)

/-- One more operation adds its request, if it makes one for the neighbor. -/
theorem requestTimes_concat (m : Monitor α σ) (ops : List (Operation α σ)) (op : Operation α σ)
    (n : Name) : m.requestTimes (ops ++ [op]) n = m.requestTimes ops n ++
      if (m.run ops).asker? op = some n then [(m.run ops).clock.now] else [] := by
  unfold requestTimes
  rw [steps_append, List.filter_append, List.map_append]
  congr 1
  split
  · next h => simp [steps, h]
  · next h => simp [steps, h]

/-- The monitor remembers of each neighbor the last of the requests that it has caused, which are as
far apart as they have to be. -/
structure Remembers (m : Monitor α σ) (asked : Name → List Instant) : Prop where
  last (n : Name) : m.lastTrigger? n = (asked n).getLast?
  /-- No request was made in the future. -/
  past {n : Name} {t : Instant} : t ∈ asked n → t ≤ m.clock.now
  spaced (n : Name) : (asked n).Pairwise fun t t' => t + m.settings.triggerInterval ≤ t'

variable {asked asked' : Name → List Instant}

omit [Scalar α] in
/-- The last request decides, since those before it were made earlier. -/
theorem Remembers.isLimited_iff (h : m.Remembers asked) : m.IsLimited n ↔
    ∃ t ∈ asked n, m.clock.now < t + m.settings.triggerInterval := by
  unfold MonitorState.IsLimited
  rw [h.last]
  constructor
  · rintro ⟨t, hlast, hrecent⟩
    have ht := List.mem_of_getLast? hlast
    exact ⟨t, ht, (Nat.sub_lt_iff_lt_add' (h.past ht)).1 hrecent⟩
  · rintro ⟨t, ht, hrecent⟩
    obtain ⟨last, hlast⟩ := Option.isSome_iff_exists.1
      (List.getLast?_isSome.2 (List.ne_nil_of_mem ht))
    obtain ⟨earlier, hasked⟩ := List.getLast?_eq_some_iff.1 hlast
    -- The requests are an interval apart, so the last one is the latest.
    have hle : t ≤ last := by
      have hspaced := h.spaced n
      rw [hasked, List.pairwise_append] at hspaced
      obtain ⟨-, -, hspaced⟩ := hspaced
      rw [hasked, List.mem_append, List.mem_singleton] at ht
      rcases ht with ht | rfl
      · exact Nat.le_trans (Nat.le_add_right _ _) (hspaced t ht last (List.mem_singleton_self _))
      · exact Nat.le_refl _
    refine ⟨last, hlast, ?_⟩
    rw [Nat.sub_lt_iff_lt_add' (h.past (List.mem_of_getLast? hlast))]
    exact Nat.lt_of_lt_of_le hrecent (Nat.add_le_add_right hle _)

/-- Whatever makes no note and lets time pass at most. -/
theorem Remembers.apply_of_kept (h : m.Remembers asked)
    (hlast : ∀ k, (m.apply op).lastTrigger? k = m.lastTrigger? k) :
    (m.apply op).Remembers asked where
  last n := (hlast n).trans (h.last n)
  past ht := Nat.le_trans (h.past ht) (m.now_apply op ▸ Nat.le_add_right _ _)
  spaced n := by
    rw [m.settings_apply op]
    exact h.spaced n

/-- A request that is allowed is remembered. -/
theorem Remembers.apply_of_asked (h : m.Remembers asked) (hallowed : ¬ m.IsLimited n)
    (hasks : MonitorState.AsksFor m.toMonitorState n (m.apply op).toMonitorState) :
    (m.apply op).Remembers fun k => asked k ++ if k = n then [m.clock.now] else [] where
  last k := by
    rw [hasks.last]
    split
    · simp
    · rw [List.append_nil, h.last]
  past {k t} ht := by
    have hnow : m.clock.now ≤ (m.apply op).clock.now := m.now_apply op ▸ Nat.le_add_right _ _
    rcases List.mem_append.1 ht with ht | ht
    · exact Nat.le_trans (h.past ht) hnow
    · split at ht
      · exact List.mem_singleton.1 ht ▸ hnow
      · cases ht
  spaced k := by
    rw [m.settings_apply op]
    split
    · next hk =>
      subst hk
      refine List.pairwise_append.2 ⟨h.spaced k, List.pairwise_singleton _ _, ?_⟩
      intro t ht t' ht'
      rw [List.mem_singleton.1 ht']
      exact Nat.le_of_not_lt fun hrecent => hallowed (h.isLimited_iff.2 ⟨t, ht, hrecent⟩)
    · rw [List.append_nil]
      exact h.spaced k

/-- Where no cost is written, nobody causes a request. -/
theorem asker?_of_unwritten (h : m.written? op = none) : m.asker? op = none := by
  rw [asker?, h, Option.bind_none]

/-- Nobody causes a request where nothing is requested. -/
theorem asker?_of_asksNothing {cost : α} (h : m.written? op = some (n, cost))
    (hasks : MonitorState.AsksNothing m.toMonitorState (m.apply op).toMonitorState) :
    m.asker? op = none := by
  rw [asker?, h, Option.bind_some, if_pos hasks.rebuild]

/-- Whose cost is written causes what is requested. -/
theorem asker?_of_asksFor {cost : α} (h : m.written? op = some (n, cost))
    (hasks : MonitorState.AsksFor m.toMonitorState n (m.apply op).toMonitorState) :
    m.asker? op = some n := by
  have hne : (m.apply op).rebuild ≠ m.rebuild := by
    rw [hasks.rebuild]
    intro heq
    exact absurd (congrArg Rebuild.requests heq) (Nat.succ_ne_self _)
  rw [asker?, h, Option.bind_some, if_neg hne]

end Monitor

/-- The neighbors are not taken over afresh, and no cost is applied by hand. -/
def Operation.LeavesCosts : Operation α σ → Prop
  | .adoptNeighbors | .updateCost _ _ => False
  | _ => True

namespace Monitor

variable [Scalar α] {m : Monitor α σ} {op : Operation α σ} {n : Name}
  {asked : Name → List Instant}

/-- Then it takes the outcome of a probe to write a cost. -/
theorem outcome_of_written? (hop : op.LeavesCosts) {w : Name × α} (h : m.written? op = some w) :
    ∃ o, op = .outcome o := by
  cases op with
  | outcome o => exact ⟨o, rfl⟩
  | updateCost n cost => exact hop.elim
  | _ => cases h

/-- An operation is remembered if it makes a request, which is counted. -/
theorem Remembers.apply (h : m.Remembers asked) (hop : op.LeavesCosts) :
    ((m.apply op).Remembers fun n =>
      asked n ++ if m.asker? op = some n then [m.clock.now] else []) ∧
    (m.apply op).stats.costUpdates =
      m.stats.costUpdates + if (m.asker? op).isSome then 1 else 0 := by
  have hadopt : op ≠ .adoptNeighbors := by
    rintro rfl
    exact hop
  cases hw : m.written? op with
  | none =>
    obtain ⟨hcount, hlast⟩ := keepsNotes_apply hw hadopt
    rw [asker?_of_unwritten hw]
    exact ⟨by simpa using h.apply_of_kept hlast, hcount⟩
  | some w =>
    obtain ⟨n, cost⟩ := w
    obtain ⟨o, rfl⟩ := outcome_of_written? hop hw
    obtain ⟨-, -, ⟨-, hasks⟩ | ⟨hallowed, hasks⟩⟩ := of_written?_outcome hw
    · rw [asker?_of_asksNothing hw hasks]
      exact ⟨by simpa using h.apply_of_kept hasks.last, hasks.costUpdates⟩
    · rw [asker?_of_asksFor hw hasks]
      refine ⟨?_, hasks.costUpdates⟩
      simpa [eq_comm] using h.apply_of_asked hallowed hasks

/-- Along a run the monitor remembers the last request of each neighbor, and counts them all. -/
theorem Remembers.run (h : m.Remembers fun _ => []) {ops : List (Operation α σ)}
    (hops : ∀ op ∈ ops, op.LeavesCosts) :
    (m.run ops).Remembers (m.requestTimes ops) ∧ (m.run ops).stats.costUpdates =
      m.stats.costUpdates + (m.steps ops).countP fun s => (s.1.asker? s.2).isSome := by
  induction ops using List.reverseRecOn with
  | nil => exact ⟨h, rfl⟩
  | append_singleton ops op ih =>
    obtain ⟨hops, hop⟩ := List.forall_mem_append.1 hops
    obtain ⟨hbefore, hcount⟩ := ih hops
    obtain ⟨hafter, hcounted⟩ := hbefore.apply (hop op (List.mem_singleton_self op))
    have htimes : m.requestTimes (ops ++ [op]) = fun n => m.requestTimes ops n ++
        if (m.run ops).asker? op = some n then [(m.run ops).clock.now] else [] :=
      funext (m.requestTimes_concat ops op)
    rw [run_append, htimes]
    refine ⟨hafter, ?_⟩
    rw [run_cons, run_nil, hcounted, hcount, steps_append, List.countP_append, Nat.add_assoc]
    simp [steps, List.countP_cons]

/-- Nothing is remembered of neighbors that have just been taken over. -/
theorem remembers_adopted (surroundings : Surroundings α) (settings : LinkSettings α) (memory : σ) :
    ((idle surroundings settings memory).apply .adoptNeighbors).Remembers fun _ => [] where
  last n := by
    unfold MonitorState.lastTrigger?
    cases hlink : ((idle surroundings settings memory).apply .adoptNeighbors).links[n]? with
    | none => rfl
    | some link =>
      rcases MonitorState.of_adoptNeighbors hlink with hold | ⟨a, -, -, rfl⟩
      · simp [idle, MonitorState.idle] at hold
      · rfl
  past ht := absurd ht List.not_mem_nil
  spaced _ := .nil

/-- What an operation has to do with requests, when the neighbors have caused requests at these
times before. A cost that is written is in force and in the table. A neighbor whose cost is written
causes a request if it has caused none within the trigger interval; if it has, nothing is requested.
Where no cost is written, a rebuild is requested by stopping an active monitor, and by nothing
else. -/
structure RequestsInTurn (m : Monitor α σ) (asked : Name → List Instant) (op : Operation α σ) :
    Prop where
  written {n : Name} {cost : α} : m.written? op = some (n, cost) → (∃ o, op = .outcome o) ∧
    (m.apply op).currentCost? n = some cost ∧ (m.apply op).neighbors.linkCost? n = some cost
  allowed {n : Name} {cost : α} : m.written? op = some (n, cost) →
    (∀ t ∈ asked n, t + m.settings.triggerInterval ≤ m.clock.now) →
      MonitorState.AsksFor m.toMonitorState n (m.apply op).toMonitorState
  recent {n : Name} {cost : α} {t : Instant} : m.written? op = some (n, cost) →
    t ∈ asked n → m.clock.now < t + m.settings.triggerInterval →
      MonitorState.AsksNothing m.toMonitorState (m.apply op).toMonitorState
  uncounted : m.written? op = none → (m.apply op).stats.costUpdates = m.stats.costUpdates
  unwritten : m.written? op = none → (∀ change, op ≠ .surround change) →
    (m.apply op).schedule = m.schedule ∧ (op = .stop ∧ m.active = true ∧
        (m.apply op).rebuild = m.rebuild.request ∨
      ¬ (op = .stop ∧ m.active = true) ∧ (m.apply op).rebuild = m.rebuild)

/-- A monitor that remembers the last requests makes the next in its turn. -/
theorem Remembers.requestsInTurn (h : m.Remembers asked) (hop : op.LeavesCosts) :
    m.RequestsInTurn asked op := by
  have hadopt : op ≠ .adoptNeighbors := by
    rintro rfl
    exact hop
  have houtcome : ∀ {n : Name} {cost : α}, m.written? op = some (n, cost) →
      (∃ o, op = .outcome o) ∧ (m.apply op).currentCost? n = some cost ∧
      (m.apply op).neighbors.linkCost? n = some cost ∧
      MonitorState.AsksIfAllowed m.toMonitorState n (m.apply op).toMonitorState := by
    intro n cost hw
    obtain ⟨o, rfl⟩ := outcome_of_written? hop hw
    exact ⟨⟨o, rfl⟩, of_written?_outcome hw⟩
  refine ⟨?_, ?_, ?_, ?_, ?_⟩
  · intro n cost hw
    obtain ⟨ho, hcurrent, htable, -⟩ := houtcome hw
    exact ⟨ho, hcurrent, htable⟩
  · intro n cost hw hlong
    obtain ⟨-, -, -, ⟨hlimited, -⟩ | ⟨-, hasks⟩⟩ := houtcome hw
    · obtain ⟨t, ht, hrecent⟩ := h.isLimited_iff.1 hlimited
      exact absurd (hlong t ht) (Nat.not_le.2 hrecent)
    · exact hasks
  · intro n cost t hw ht hrecent
    obtain ⟨-, -, -, ⟨-, hnothing⟩ | ⟨hallowed, -⟩⟩ := houtcome hw
    · exact hnothing
    · exact absurd (h.isLimited_iff.2 ⟨t, ht, hrecent⟩) hallowed
  · intro hw
    exact (keepsNotes_apply hw hadopt).1
  · intro hw hothers
    exact requests_apply_of_unwritten hw hadopt hothers

end Monitor

/-- **Requests for rebuilds are rate limited, neighbor by neighbor.** Let the neighbors be taken
over once, at the beginning, and no cost be applied by hand. A cost that the outcome of a probe
writes leads to one request for a rebuild and one for a calculation, if its neighbor has caused no
request within the trigger interval, and to none otherwise, whatever other neighbors have caused;
apart from that, a rebuild is requested only when an active monitor is stopped. The cost updates
that are counted are the writes that have led to a request, and two requests caused by the same
neighbor are never less than a trigger interval apart. -/
theorem rebuilds_rate_limited [Scalar α] (surroundings : Surroundings α) (settings : LinkSettings α)
    (memory : σ) {ops : List (Operation α σ)} (hops : ∀ op ∈ ops, op.LeavesCosts) :
    let m := (Monitor.idle surroundings settings memory).apply .adoptNeighbors
    (∀ before op after, ops = before ++ op :: after →
      (m.run before).RequestsInTurn (m.requestTimes before) op) ∧
    (m.run ops).stats.costUpdates =
      ((m.steps ops).countP fun s => (s.1.asker? s.2).isSome) ∧
    ∀ n, (m.requestTimes ops n).Pairwise fun t t' => t + settings.triggerInterval ≤ t' := by
  intro m
  have hbegin : m.Remembers fun _ => [] := Monitor.remembers_adopted surroundings settings memory
  refine ⟨?_, ?_, ?_⟩
  · intro before op after hsplit
    rw [hsplit, List.forall_mem_append, List.forall_mem_cons] at hops
    exact (hbegin.run hops.1).1.requestsInTurn hops.2.1
  · exact (hbegin.run hops).2.trans (Nat.zero_add _)
  · intro n
    have hspaced := (hbegin.run hops).1.spaced n
    rw [Monitor.settings_run] at hspaced
    exact hspaced

namespace Underpriced

open Capped (neighbor)

/-- Costs are the configured ones, whatever is measured. -/
noncomputable def settings : LinkSettings Quantity :=
  { LinkSettings.standard with maxMultiplier := number 1, minCostSamples := 1 }

/-- The neighbor is advertised at less than it is configured to cost. -/
noncomputable def monitor : Monitor Quantity Unit :=
  (Monitor.idle
    { (Surroundings.quiet : Surroundings Quantity) with
      neighbors := .ofList [⟨neighbor, .active, number (1 / (2 : ℕ)), number 1, 0⟩] } settings ()).apply
    .adoptNeighbors

/-- A probe is sent, and some time passes. -/
def before : List (Operation Quantity Unit) := [.sendProbe neighbor, .advance (.ofMillis 50)]

/-- The link once the probe has been answered. -/
noncomputable def link : LinkState Quantity :=
  { LinkState.configured neighbor .active (number 1) (number (1 / (2 : ℕ))) 0 0 50 with
    history := [.ofMillis 50] }

/-- The monitor once it has measured the answer. -/
noncomputable def measured : Monitor Quantity Unit :=
  { monitor.run before with toMonitorState := ((monitor.run before).measure 1).2 }

/-- Measured, the neighbor costs what it is configured to. -/
theorem newCost?_measured : measured.newCost? neighbor = some (number 1) := by
  have hbounds := roundedWithin_rttCost (k := 1) (x := 1) (by norm_num) le_rfl (.ofMillis 50)
  have hexact : exactCost 1 1 (.ofMillis 50) = 1 :=
    le_antisymm (hbounds.le_high.trans_eq (mul_one 1)) hbounds.low_le
  have hnearest : Quantity.nearest 1 = 1 := by
    have hfloor : ⌊(1 : ℝ) + 1 / 2⌋ = 1 := by
      rw [Int.floor_eq_iff]
      norm_num
    rw [Quantity.nearest_eq_floor (by norm_num), hfloor]
    norm_num
  have hcost := hbounds.eq_nearest
  rw [hexact, hnearest] at hcost
  exact congrArg some hcost

/-- From the advertised to the configured cost it is a change by its whole. -/
theorem relativeChange_cost : relativeChange (number (1 / 2)) (number 1) = number 1 := by
  rw [relativeChange_number (by norm_num)]
  norm_num [abs_of_pos]

/-- Such a change is large enough to be written. -/
theorem shouldUpdate_measured : measured.shouldUpdate neighbor (number 1) = true := by
  have hnoticeable : isNoticeable (0.1 : Quantity) (number (1 / 2)) (number 1) = true := by
    have hpos : ¬ number (1 / 2) ≤ (0.0 : Quantity) := by
      rw [Quantity.zero_eq, Quantity.number_le_number]
      norm_num
    have hle : (0.1 : Quantity) ≤ number 1 := by
      rw [Quantity.ofScientific_eq, Quantity.number_le_number]
      norm_num
    rw [isNoticeable, if_neg hpos, relativeChange_cost]
    exact decide_eq_true hle
  exact hnoticeable

/-- The answer brings a revision of the cost. -/
theorem revision?_answer : (monitor.run before).revision? (.outcome ⟨neighbor, 1, .data⟩) =
    some ⟨measured, neighbor, number 1⟩ := by
  have hmeasure : ((monitor.run before).measure 1).1 = some (neighbor, ⟨link, .ofMillis 50⟩) := rfl
  have hdue : measured.dueCost? neighbor ⟨link, .ofMillis 50⟩ = some (number 1) := by
    rw [Monitor.dueCost?, newCost?_measured, Option.filter_some, if_pos shouldUpdate_measured]
    rfl
  rw [Monitor.revision?, if_pos rfl, Monitor.answerRevision?, hmeasure, Option.bind_some]
  exact congrArg (Option.map _) hdue

/-- The configured cost is written on the answer. -/
theorem written_answer : (monitor.run before).written? (.outcome ⟨neighbor, 1, .data⟩) =
    some (neighbor, number 1) := by
  have hrevisable : measured.revisable? neighbor = some (number (1 / 2), link.metrics) := rfl
  have hfine : isFine (0.05 : Quantity) (number (1 / 2)) (number 1) = false := by
    have hnot : ¬ number 1 < (0.05 : Quantity) := by
      rw [Quantity.ofScientific_eq, Quantity.number_lt_number]
      norm_num
    rw [isFine, relativeChange_cost, decide_eq_false hnot, Bool.and_false]
  have hwritten : Revision.written? ⟨measured, neighbor, number 1⟩ =
      (measured.writtenCost? measured.neighbors neighbor (number 1)).map (number 1, ·) :=
    Revision.written?_of_coarse (r := ⟨measured, neighbor, number 1⟩) hrevisable hfine
  rw [Monitor.written?, revision?_answer, Option.bind_some, hwritten]
  rfl

/-- The answer to the probe leads to the first request. -/
theorem request_answered : (∀ op ∈ before ++ [.outcome ⟨neighbor, 1, .data⟩], op.LeavesCosts) ∧
    MonitorState.AsksFor (monitor.run before).toMonitorState neighbor
      (monitor.run (before ++ [.outcome ⟨neighbor, 1, .data⟩])).toMonitorState ∧
    (monitor.run (before ++ [.outcome ⟨neighbor, 1, .data⟩])).stats.costUpdates = 1 := by
  have hops : ∀ op ∈ before ++ [.outcome ⟨neighbor, 1, .data⟩], op.LeavesCosts := by
    simp [before, Operation.LeavesCosts]
  obtain ⟨hsteps, -, -⟩ := rebuilds_rate_limited _ settings () hops
  have hasks := (hsteps before _ [] rfl).allowed written_answer
    (by intro t ht; cases ht)
  rw [Monitor.run_append]
  exact ⟨hops, hasks, hasks.costUpdates⟩

end Underpriced

end AdaptiveRouting
