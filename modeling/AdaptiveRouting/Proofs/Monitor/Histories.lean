import AdaptiveRouting.Proofs.Monitor.CostWrites
import AdaptiveRouting.Proofs.Monitor.ProbeMatching
import AdaptiveRouting.Proofs.Time.Averages
import AdaptiveRouting.Proofs.Windows
import Mathlib.Data.List.DropRight

/-!
# What is in a history

A round-trip time is accepted for a neighbor when the answer to a pending probe arrives whose
neighbor it is and whose link is stable at that moment, unless it is beyond the ceiling
(`MonitorState.accepted?`). Other answers, and answers that come twice, leave no trace.

Everything is forgotten when the neighbor is given up, and when it is taken over from the table
(`Monitor.givesUp`, `Monitor.takesOver`); nothing else touches a history. So one step forgets it or
adds to it what was accepted (`Monitor.historyOf_step`), and along a run a history shows the latest
of the round-trip times that were accepted since (`Monitor.historyOf_run`). That taking over counts
as well shows only when it happens twice (`Adopted`).
-/

namespace AdaptiveRouting

variable {α σ : Type}

/-! ## What is accepted, and when it is forgotten -/

/-- The round-trip time that an outcome has to add to the history of a neighbor. -/
def MonitorState.accepted? (m : MonitorState α) (n : Name) (o : ProbeOutcome) : Option Duration :=
  match o.kind, m.pending[o.seq]? with
  | .data, some probe =>
    let elapsed := m.clock.now - probe.sentAt
    if probe.neighbor = n ∧ m.isStable n ∧ elapsed ≤ m.settings.rttCeiling then
      some (max m.settings.rttFloor elapsed)
    else none
  | _, _ => none

namespace Monitor

/-- The round-trip time that is accepted for a neighbor in a step. -/
def accepted? (n : Name) (s : Monitor α σ × Operation α σ) : Option Duration :=
  match s.2 with
  | .outcome o => s.1.toMonitorState.accepted? n o
  | _ => none

/-- Whether a neighbor is given up in a step: it has missed too many hellos, or is reported
inactive. -/
def givesUp (n : Name) (s : Monitor α σ × Operation α σ) : Bool :=
  match s.2 with
  | .news (.helloTimeout k timeouts) => k = n && s.1.settings.retryThreshold ≤ timeouts
  | .news (.statusChanged k .inactive) => k = n
  | _ => false

/-- Whether a neighbor is taken over from the table in a step. -/
def takesOver (n : Name) (s : Monitor α σ × Operation α σ) : Bool :=
  match s.2 with
  | .adoptNeighbors => s.1.neighbors.toList.any (·.name = n)
  | _ => false

/-- Whether whatever was accepted for a neighbor before is forgotten in a step. -/
def forgets (n : Name) (s : Monitor α σ × Operation α σ) : Bool := givesUp n s || takesOver n s

/-- The round-trip times that were accepted for a neighbor in the steps behind the last one of a
certain kind, oldest first. -/
def acceptedSince (restarts : Monitor α σ × Operation α σ → Bool) (n : Name)
    (steps : List (Monitor α σ × Operation α σ)) : List Duration :=
  (steps.rtakeWhile fun s => !restarts s).filterMap (accepted? n)

section
variable {restarts restarts' : Monitor α σ × Operation α σ → Bool} {n : Name}
  {steps later : List (Monitor α σ × Operation α σ)} {s : Monitor α σ × Operation α σ}

/-- One more step adds the round-trip time that it accepts, or starts anew. -/
theorem acceptedSince_concat : acceptedSince restarts n (steps ++ [s]) =
    if restarts s then [] else acceptedSince restarts n steps ++ (accepted? n s).toList := by
  unfold acceptedSince
  rw [List.rtakeWhile_concat]
  cases restarts s with
  | true => rfl
  | false => exact filterMap_concat _ _ s

/-- Every round-trip time of the list has been accepted in some step. -/
theorem exists_of_mem_acceptedSince {rtt : Duration} (h : rtt ∈ acceptedSince restarts n steps) :
    ∃ s ∈ steps, accepted? n s = some rtt := by
  obtain ⟨s, hs, hrtt⟩ := List.mem_filterMap.1 h
  exact ⟨s, (List.rtakeWhile_suffix _ _).mem hs, hrtt⟩

/-- Steps in which nothing is accepted need not be looked at, and of the others it only matters
which of them restart. -/
theorem acceptedSince_append_congr (hnone : ∀ s ∈ steps, accepted? n s = none)
    (hlater : ∀ s ∈ later, restarts s = restarts' s) :
    acceptedSince restarts n (steps ++ later) = acceptedSince restarts' n (steps ++ later) := by
  have hnothing : ∀ r : Monitor α σ × Operation α σ → Bool, acceptedSince r n steps = [] := by
    intro r
    refine List.eq_nil_iff_forall_not_mem.2 fun rtt hrtt => ?_
    obtain ⟨s, hs, hsome⟩ := exists_of_mem_acceptedSince hrtt
    rw [hnone s hs] at hsome
    cases hsome
  induction later using List.reverseRecOn with
  | nil => rw [List.append_nil, hnothing, hnothing]
  | append_singleton later s ih =>
    obtain ⟨hbefore, hs⟩ := List.forall_mem_append.1 hlater
    rw [← List.append_assoc, acceptedSince_concat, acceptedSince_concat, ih hbefore,
      hs s (List.mem_singleton_self s)]

end

end Monitor

/-! ## One step -/

/-- To record a round-trip time is to note it down in the window. -/
theorem LinkState.history_record {l : LinkState α} (hcapacity : 0 < l.capacity)
    (hlength : l.history.length ≤ l.capacity) (rtt : Duration) :
    (l.record rtt).history = keep l.capacity l.history (some rtt) := by
  have hdrop : (l.history ++ [rtt]).length - l.capacity =
      if l.capacity ≤ l.history.length then 1 else 0 := by
    rw [List.length_append, List.length_singleton]
    split <;> omega
  rw [keep, latest, hdrop]
  unfold record
  split
  · rw [List.drop_append_of_le_length (by omega)]
  · rfl

/-- News of a neighbor clears its history when the neighbor is given up, and leaves it else. -/
theorem LinkState.history_informed (l : LinkState α) (m : Monitor α σ) (now : Instant)
    (e : NeighborEvent) : (l.informed m.settings now e).history =
      if Monitor.givesUp e.neighbor (m, .news e) then [] else l.history := by
  cases e with
  | helloSent k => rfl
  | helloReceived k => rfl
  | helloTimeout k timeouts =>
    simp only [informed, Monitor.givesUp, NeighborEvent.neighbor, decide_true, Bool.true_and,
      decide_eq_true_eq]
    split <;> rfl
  | statusChanged k status =>
    cases status with
    | inactive => simp [informed, Monitor.givesUp, NeighborEvent.neighbor]
    | active =>
      simp only [informed, Monitor.givesUp]
      split <;> rfl

/-- A neighbor that does not take part after some news has no history, if it had none when it did
not take part before. -/
theorem LinkState.history_informed_of_inactive {l : LinkState α} {settings : LinkSettings α}
    {now : Instant} {e : NeighborEvent} (h : l.status = .inactive → l.history = [])
    (hinactive : (l.informed settings now e).status = .inactive) :
    (l.informed settings now e).history = [] := by
  unfold informed at hinactive ⊢
  split at hinactive
  · exact h hinactive
  · cases hinactive
  · split at hinactive
    · rw [if_pos ‹_›]
    · rw [if_neg ‹_›]
      exact h hinactive
  · rfl
  · split at hinactive
    · rw [if_pos ‹_›]
      exact h hinactive
    · cases hinactive

/-- News does not change how many round-trip times a link holds. -/
theorem LinkState.capacity_informed (l : LinkState α) (settings : LinkSettings α) (now : Instant)
    (e : NeighborEvent) : (l.informed settings now e).capacity = l.capacity := by
  unfold informed
  split
  · rfl
  · rfl
  · split <;> rfl
  · rfl
  · split <;> rfl

/-- Of the same standing, links have the same status and history. -/
theorem SameStanding.exists_of_getElem? {links links' : NameMap (LinkState α)} {n : Name}
    {link : LinkState α} (h : SameStanding links links') (hlink : links'[n]? = some link) :
    ∃ old, links[n]? = some old ∧ old.status = link.status ∧ old.history = link.history := by
  have hmap := h n
  rw [hlink, Option.map_some] at hmap
  obtain ⟨old, hold, heq⟩ := Option.map_eq_some_iff.1 hmap.symm
  exact ⟨old, hold, congrArg (·.status) heq, congrArg (·.history) heq⟩

namespace MonitorState

variable {m : MonitorState α} {n : Name}

/-- Nothing is recorded for a neighbor that does not take part. -/
theorem links_take_of_inactive {o : ProbeOutcome} {link : LinkState α}
    (h : (m.take o).links[n]? = some link) (hinactive : link.status = .inactive) :
    m.links[n]? = some link := by
  unfold take at h
  split at h
  · rcases m.measure_cases o.seq with ⟨-, hm⟩ | ⟨probe, -, ⟨-, hm⟩ | ⟨rtt, -, hm⟩⟩
    · rwa [hm] at h
    · rwa [hm] at h
    · rw [hm] at h
      dsimp only [recordRtt] at h
      split at h
      · exact h
      · next old hold =>
        split at h
        -- Only the link of a stable neighbor is replaced, which is active.
        · next hstable =>
          rw [Std.ExtTreeMap.getElem?_insert] at h
          split at h
          · cases h
            have hactive : old.status = .active := by
              simpa using (Bool.and_eq_true_iff.1 hstable).1
            exact absurd (hactive.symm.trans hinactive) nofun
          · exact h
        · exact h
  · exact h
  · exact h

/-- Neighbors that are taken over begin without round-trip times, and the links of others stay as
they are. -/
theorem historyOf_adoptNeighbors (m : MonitorState α) (n : Name) : m.adoptNeighbors.historyOf n =
    if m.neighbors.toList.any (·.name = n) then [] else m.historyOf n := by
  suffices hfold : ∀ (as : List (Adjacency α)) (links : NameMap (LinkState α)),
      (((as.foldl (fun links a => links.insert a.name (m.configuredLink a)) links)[n]?).map
        (·.history)).getD [] =
      if as.any (·.name = n) then [] else (links[n]?.map (·.history)).getD [] from
    hfold m.neighbors.toList m.links
  intro as
  induction as with
  | nil => exact fun _ => rfl
  | cons a as ih =>
    intro links
    rw [List.foldl_cons, ih, List.any_cons, Std.ExtTreeMap.getElem?_insert]
    by_cases ha : a.name = n
    · simp [ha, configuredLink, LinkState.configured]
    · simp [ha]

/-- What is known of the link to a neighbor, apart from its costs, in terms of the settings. -/
structure Furnished (m : MonitorState α) : Prop where
  /-- Each history has the capacity of the settings. -/
  capacity {n : Name} {link : LinkState α} : m.links[n]? = some link →
    link.capacity = m.settings.historyCapacity
  /-- A neighbor that does not take part has no history. -/
  inactive {n : Name} {link : LinkState α} : m.links[n]? = some link →
    link.status = .inactive → link.history = []

/-- A round-trip time is noted down for the neighbor that it belongs to, if its link is stable. -/
theorem historyOf_recordRtt (hcapacity : 0 < m.settings.historyCapacity) (hfurnished : m.Furnished)
    (hlength : (m.historyOf n).length ≤ m.settings.historyCapacity) (k : Name) (rtt : Duration) :
    (m.recordRtt k rtt).2.historyOf n = keep m.settings.historyCapacity (m.historyOf n)
      (if k = n ∧ m.isStable n then some rtt else none) := by
  by_cases hk : k = n
  · subst hk
    unfold recordRtt isStable
    cases hlink : m.links[k]? with
    | none => simp [keep]
    | some link =>
      cases hstable : link.isStable with
      | false => simp [hstable, keep]
      | true =>
        -- The link holds as many round-trip times as the settings say, so the oldest is forgotten
        -- when it should be.
        have hkept := hfurnished.capacity hlink
        have hhistory : m.historyOf k = link.history := by simp [historyOf, hlink]
        rw [hhistory] at hlength ⊢
        have hrecord := link.history_record (hkept ▸ hcapacity) (hkept ▸ hlength) rtt
        rw [hkept] at hrecord
        simp [historyOf, hstable, hrecord]
  · rw [if_neg fun h => hk h.1]
    rcases m.links_recordRtt k rtt with heq | ⟨link, -, heq⟩
    · rw [historyOf, heq]
      rfl
    · rw [historyOf, heq, Std.ExtTreeMap.getElem?_insert, if_neg (by simpa using hk)]
      rfl

/-- The outcome of a probe adds to the history of a neighbor what it has to. -/
theorem historyOf_take (hbounds : m.settings.rttFloor < m.settings.rttCeiling)
    (hcapacity : 0 < m.settings.historyCapacity) (hfurnished : m.Furnished)
    (hlength : (m.historyOf n).length ≤ m.settings.historyCapacity) (o : ProbeOutcome) :
    (m.take o).historyOf n =
      keep m.settings.historyCapacity (m.historyOf n) (m.accepted? n o) := by
  unfold take accepted?
  cases hkind : o.kind with
  | nack | timeout => rfl
  | data =>
    dsimp only
    rcases m.measure_cases o.seq with ⟨hp, hm⟩ | ⟨probe, hp, ⟨hrtt, hm⟩ | ⟨rtt, hrtt, hm⟩⟩
    · rw [hm, hp]
      rfl
    · -- beyond the ceiling nothing is accepted
      have hlate : ¬ m.clock.now - probe.sentAt ≤ m.settings.rttCeiling := by
        intro hle
        unfold countedRtt? at hrtt
        split at hrtt
        · cases hrtt
        · rw [if_neg (Nat.not_lt.2 hle)] at hrtt
          cases hrtt
      rw [hm, hp]
      dsimp only
      rw [if_neg fun h => hlate h.2.2]
      rfl
    · obtain ⟨rfl, htimely⟩ := countedRtt?_eq_some hbounds hrtt
      rw [hm, hp]
      simp only [htimely, and_true]
      exact historyOf_recordRtt hcapacity hfurnished hlength _ _

end MonitorState

namespace Monitor

variable {m : Monitor α σ} {n : Name}

/-- News of one neighbor is not a reason to give up another. -/
theorem givesUp_of_ne {e : NeighborEvent} (h : n ≠ e.neighbor) :
    givesUp n (m, .news e) = false := by
  cases e with
  | helloSent k | helloReceived k => rfl
  | helloTimeout k timeouts =>
    have hk : k ≠ n := fun hk => h hk.symm
    simp [givesUp, hk]
  | statusChanged k status =>
    have hk : k ≠ n := fun hk => h hk.symm
    cases status <;> simp [givesUp, hk]

variable [Scalar α]

/-- One step forgets a history, or adds to it what was accepted. -/
theorem historyOf_step (hbounds : m.settings.rttFloor < m.settings.rttCeiling)
    (hcapacity : 0 < m.settings.historyCapacity) (hfurnished : m.Furnished)
    (hlength : (m.historyOf n).length ≤ m.settings.historyCapacity) (op : Operation α σ) :
    (m.apply op).historyOf n = if forgets n (m, op) then [] else
      keep m.settings.historyCapacity (m.historyOf n) (accepted? n (m, op)) := by
  by_cases hadopt : op = .adoptNeighbors
  · subst hadopt
    exact m.historyOf_adoptNeighbors n
  -- Besides taking over neighbors, news forgets a history and the outcome of a probe adds to it;
  -- nothing else touches one.
  by_cases hnews : ∃ e, op = .news e
  · obtain ⟨e, rfl⟩ := hnews
    have hforgets : forgets n (m, .news e) = givesUp n (m, .news e) := Bool.or_false _
    have hlink : (m.apply (.news e)).links[n]? = _ := (m.informed_handleNews e).link n
    rw [hforgets, MonitorState.historyOf, hlink]
    by_cases hn : n = e.neighbor
    · subst hn
      rw [if_pos rfl, Option.map_map]
      cases hl : m.links[e.neighbor]? with
      | none => simp [MonitorState.historyOf, hl, accepted?, keep]
      | some link =>
        simp [MonitorState.historyOf, hl, accepted?, keep, link.history_informed m]
    · rw [if_neg hn, givesUp_of_ne hn]
      rfl
  by_cases houtcome : ∃ o, op = .outcome o
  · obtain ⟨o, rfl⟩ := houtcome
    have hsame := MonitorState.historyOf_of_sameStanding (m.sameStanding_outcome o) n
    exact hsame.trans (MonitorState.historyOf_take hbounds hcapacity hfurnished hlength o)
  · have hsame := m.sameStanding_apply hadopt (fun e he => hnews ⟨e, he⟩)
      fun o ho => houtcome ⟨o, ho⟩
    have hhistory := MonitorState.historyOf_of_sameStanding hsame n
    rw [hhistory]
    cases op with
    | adoptNeighbors => exact absurd rfl hadopt
    | news e => exact absurd ⟨e, rfl⟩ hnews
    | outcome o => exact absurd ⟨o, rfl⟩ houtcome
    | _ => rfl

/-- Neighbors that are taken over come with links of the capacity that is set. -/
theorem furnished_adoptNeighbors (h : m.Furnished) :
    (m.apply (.adoptNeighbors : Operation α σ)).Furnished := by
  constructor
  · intro n link hlink
    rcases MonitorState.of_adoptNeighbors hlink with hold | ⟨a, -, -, rfl⟩
    · exact h.capacity hold
    · rfl
  · intro n link hlink hinactive
    rcases MonitorState.of_adoptNeighbors hlink with hold | ⟨a, -, -, rfl⟩
    · exact h.inactive hold hinactive
    · rfl

/-- News that make a neighbor inactive empty its history. -/
theorem furnished_news (h : m.Furnished) (e : NeighborEvent) :
    (m.apply (.news e : Operation α σ)).Furnished := by
  have hsettings := m.settings_apply (.news e : Operation α σ)
  have hinformed : ∀ {n : Name} {link : LinkState α},
      (m.apply (.news e)).links[n]? = some link → ∃ old : LinkState α, m.links[n]? = some old ∧
        (link = old ∨ link = old.informed m.settings m.clock.now e) := by
    intro n link hlink
    rw [show (m.apply (.news e)).links = (m.handleNews e).links from rfl,
      (m.informed_handleNews e).link n] at hlink
    split at hlink
    · obtain ⟨old, hold, rfl⟩ := Option.map_eq_some_iff.1 hlink
      exact ⟨old, hold, .inr rfl⟩
    · exact ⟨link, hlink, .inl rfl⟩
  constructor
  · intro n link hlink
    obtain ⟨old, hold, rfl | rfl⟩ := hinformed hlink
    · rw [hsettings, h.capacity hold]
    · rw [hsettings, old.capacity_informed, h.capacity hold]
  · intro n link hlink hinactive
    obtain ⟨old, hold, rfl | rfl⟩ := hinformed hlink
    · exact h.inactive hold hinactive
    · exact old.history_informed_of_inactive (h.inactive hold) hinactive

/-- Other operations write nothing into the history of an inactive neighbor. -/
theorem exists_of_inactive {op : Operation α σ} (hadopt : op ≠ .adoptNeighbors)
    (hnews : ∀ e, op ≠ .news e) {link : LinkState α} (hlink : (m.apply op).links[n]? = some link)
    (hinactive : link.status = .inactive) : ∃ old : LinkState α, m.links[n]? = some old ∧
      old.status = .inactive ∧ old.history = link.history := by
  by_cases houtcome : ∃ o, op = .outcome o
  · obtain ⟨o, rfl⟩ := houtcome
    obtain ⟨taken, htaken, hstatus, hhistory⟩ :=
      (m.sameStanding_outcome o).exists_of_getElem? hlink
    rw [hinactive] at hstatus
    exact ⟨taken, MonitorState.links_take_of_inactive htaken hstatus, hstatus, hhistory⟩
  · have hsame := m.sameStanding_apply hadopt hnews fun o ho => houtcome ⟨o, ho⟩
    obtain ⟨old, hold, hstatus, hhistory⟩ := hsame.exists_of_getElem? hlink
    exact ⟨old, hold, hstatus.trans hinactive, hhistory⟩

/-- Every step leaves the links furnished by the settings. -/
theorem furnished_apply (h : m.Furnished) (op : Operation α σ) : (m.apply op).Furnished := by
  by_cases hadopt : op = .adoptNeighbors
  · subst hadopt
    exact furnished_adoptNeighbors h
  by_cases hnews : ∃ e, op = .news e
  · obtain ⟨e, rfl⟩ := hnews
    exact furnished_news h e
  have hother : ∀ e, op ≠ .news e := fun e he => hnews ⟨e, he⟩
  have hcapacity := m.map_apply hadopt hother (·.capacity) (fun _ => rfl) fun _ _ => rfl
  constructor
  · intro n link hlink
    have hmap := hcapacity n
    rw [hlink, Option.map_some] at hmap
    obtain ⟨old, hold, heq⟩ := Option.map_eq_some_iff.1 hmap.symm
    rw [m.settings_apply op, ← heq, h.capacity hold]
  · intro n link hlink hinactive
    obtain ⟨old, hold, hstatus, hhistory⟩ := exists_of_inactive hadopt hother hlink hinactive
    rw [← hhistory, h.inactive hold hstatus]

end Monitor

/-! ## Runs -/

/-- Sound settings have room for some round-trip times. -/
theorem LinkSettings.historyCapacity_pos [Scalar α] {settings : LinkSettings α}
    (h : settings.violation? = none) : 0 < settings.historyCapacity := by
  have hcapacity := (violation?_eq_none_iff.1 h).historyCapacity
  omega

/-- A round-trip time that is accepted lies between the floor and the ceiling. -/
theorem MonitorState.accepted?_bounds {m : MonitorState α} {n : Name} {o : ProbeOutcome}
    {rtt : Duration} (hbounds : m.settings.rttFloor < m.settings.rttCeiling)
    (h : m.accepted? n o = some rtt) : m.settings.rttFloor ≤ rtt ∧ rtt ≤ m.settings.rttCeiling := by
  unfold accepted? at h
  split at h
  · dsimp only at h
    split at h
    · next htimely =>
      cases h
      exact ⟨Nat.le_max_left .., Nat.max_le.2 ⟨Nat.le_of_lt hbounds, htimely.2.2⟩⟩
    · cases h
  · cases h

/-- Nothing is accepted for a neighbor that is not known. -/
theorem Monitor.accepted?_of_unknown {m : Monitor α σ} {n : Name} (h : m.links[n]? = none)
    (op : Operation α σ) : accepted? n (m, op) = none := by
  unfold accepted?
  split
  · have hstable : m.isStable n = false := by simp [MonitorState.isStable, h]
    unfold MonitorState.accepted?
    split
    · simp [hstable]
    · rfl
  · rfl

namespace Monitor

variable [Scalar α] {settings : LinkSettings α}

/-- Before any neighbor is taken over, none is known. -/
theorem links_run_of_unadopted (surroundings : Surroundings α) (memory : σ)
    {ops : List (Operation α σ)} (hops : .adoptNeighbors ∉ ops) (n : Name) :
    ((idle surroundings settings memory).run ops).links[n]? = none := by
  refine run_keeps (P := fun m => m.links[n]? = none) (by simp [idle, MonitorState.idle]) ?_
  intro s hs hnone
  have hadopt : s.2 ≠ .adoptNeighbors := fun h => hops (h ▸ mem_of_mem_steps hs)
  by_cases hnews : ∃ e, s.2 = .news e
  · obtain ⟨e, he⟩ := hnews
    rw [he, show (s.1.apply (.news e)).links = (s.1.handleNews e).links from rfl,
      (s.1.informed_handleNews e).link n, hnone]
    split <;> rfl
  · have hmap := s.1.map_apply hadopt (fun e he => hnews ⟨e, he⟩) (fun _ => ()) (fun _ => rfl)
      (fun _ _ => rfl) n
    rw [hnone, Option.map_none] at hmap
    exact Option.map_eq_none_iff.1 hmap

/-- Along a run the links are furnished by the settings, and a history shows the latest of the
round-trip times that were accepted since it was forgotten last. -/
theorem historyOf_run (hsettings : settings.violation? = none) (surroundings : Surroundings α)
    (memory : σ) (ops : List (Operation α σ)) (n : Name) :
    ((idle surroundings settings memory).run ops).Furnished ∧
    ((idle surroundings settings memory).run ops).historyOf n = latest settings.historyCapacity
      (acceptedSince (forgets n) n ((idle surroundings settings memory).steps ops)) := by
  induction ops using List.reverseRecOn with
  | nil =>
    refine ⟨⟨fun hlink => ?_, fun hlink => ?_⟩, ?_⟩
    · simp [idle, MonitorState.idle] at hlink
    · simp [idle, MonitorState.idle] at hlink
    · simp [idle, MonitorState.idle, MonitorState.historyOf, steps, acceptedSince, latest]
  -- The induction is on the end of the run, where the list of what was accepted grows.
  | append_singleton ops op ih =>
    obtain ⟨hfurnished, hhistory⟩ := ih
    rw [run_append, steps_append]
    show (((idle surroundings settings memory).run ops).apply op).Furnished ∧
      (((idle surroundings settings memory).run ops).apply op).historyOf n = latest _
        (acceptedSince _ n (_ ++ [((idle surroundings settings memory).run ops, op)]))
    rw [acceptedSince_concat]
    have hkept := (idle surroundings settings memory).settings_run ops
    generalize (idle surroundings settings memory).run ops = m at hfurnished hhistory hkept ⊢
    have hsame : m.settings = settings := hkept
    refine ⟨m.furnished_apply hfurnished op, ?_⟩
    rw [historyOf_step (hsame ▸ LinkSettings.rttFloor_lt_rttCeiling hsettings)
      (hsame ▸ LinkSettings.historyCapacity_pos hsettings) hfurnished
      (by rw [hhistory, hsame]; exact length_latest_le ..), hhistory, hsame]
    split
    · simp [latest]
    · exact keep_latest _ _ _

/-- If the neighbors are taken over only once, nothing was accepted before that, so it does not
matter that it forgets what was accepted. -/
theorem acceptedSince_givesUp (surroundings : Surroundings α) (memory : σ)
    {before after : List (Operation α σ)} (hbefore : .adoptNeighbors ∉ before)
    (hafter : .adoptNeighbors ∉ after) (n : Name) :
    acceptedSince (forgets n) n
      ((idle surroundings settings memory).steps (before ++ .adoptNeighbors :: after)) =
    acceptedSince (givesUp n) n
      ((idle surroundings settings memory).steps (before ++ .adoptNeighbors :: after)) := by
  rw [List.append_cons, steps_append]
  -- Up to the step that takes the neighbors over nothing has been accepted, and behind it there is
  -- no other.
  refine acceptedSince_append_congr (fun s hs => ?_) fun s hs => ?_
  · rw [steps_append] at hs
    rcases List.mem_append.1 hs with hs | hs
    · obtain ⟨done, rest, heq, hrun⟩ := exists_run_of_mem_steps hs
      have hdone : .adoptNeighbors ∉ done := fun h => hbefore (by simp [heq, h])
      refine accepted?_of_unknown ?_ s.2
      rw [hrun]
      exact links_run_of_unadopted surroundings memory hdone n
    · rw [List.mem_singleton.1 hs]
      rfl
  · have hadopt : s.2 ≠ .adoptNeighbors := fun h => hafter (h ▸ mem_of_mem_steps hs)
    have htakes : takesOver n s = false := by
      unfold takesOver
      split
      · exact absurd ‹_› hadopt
      · rfl
    rw [forgets, htakes, Bool.or_false]

end Monitor

/-- What the history of a link has to be, by the round-trip times that were accepted. -/
structure LinkState.Remembers (l : LinkState α) (settings : LinkSettings α)
    (accepted : List Duration) : Prop where
  /-- It shows the latest of them, oldest first. -/
  history : l.history = latest settings.historyCapacity accepted
  bounded : l.history.length ≤ settings.historyCapacity
  sound : ∀ rtt ∈ l.history, settings.rttFloor ≤ rtt ∧ rtt ≤ settings.rttCeiling
  /-- A neighbor that does not take part has none. -/
  inactive : l.status = .inactive → l.history = []
  unmeasured : l.averageRtt? = none ↔ l.history = []
  /-- The average lies between the least and the greatest of them. -/
  average {average : Duration} : l.averageRtt? = some average → ∃ low high,
    l.history.min? = some low ∧ l.history.max? = some high ∧ low ≤ average ∧ average ≤ high

namespace Adopted

open Monitor

/-- One round-trip time is accepted. -/
def measuring (seq : UInt32) (elapsed : Duration) : List (Operation Float Unit) :=
  [.sendProbe .nearby, .advance elapsed, .outcome ⟨.nearby, seq, .data⟩]

/-- The neighbor is given up after two round-trip times and comes back for two others, of which one
is below the floor. -/
def ops : List (Operation Float Unit) :=
  .adoptNeighbors :: measuring 1 (.ofMillis 20) ++ measuring 2 (.ofMillis 30) ++
    [.news (.helloTimeout .nearby 3), .news (.helloReceived .nearby)] ++
    measuring 3 (.ofMillis 40) ++ measuring 4 1

/-- The neighbor is taken over for a second time after a round-trip time was accepted. -/
def twice : List (Operation Float Unit) :=
  .adoptNeighbors :: measuring 1 (.ofMillis 20) ++ [.adoptNeighbors]

end Adopted

end AdaptiveRouting
