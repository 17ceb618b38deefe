import AdaptiveRouting.Proofs.Monitor.CostCopies

/-!
# When a cost is written

The cost of a link is revised when somebody asks for it, or when the answer to a probe makes a
difference to it (`Monitor.revision?`). A `Revision` is the call to update the cost, with the
monitor that it finds. The cost that it comes to is the answer of the transform, if there is a
usable one, or else the cost by round-trip times (`Revision.final`), and it is written unless it is
too close to the cost in the table or the table does not take it (`Revision.written?`).

So every operation is accounted for, as far as the costs are concerned: it makes no revision, a
revision that writes nothing, or one that writes a cost. A revision that an answer has led to finds
a link that is stable (`Monitor.stable_of_revision?`).
-/

namespace AdaptiveRouting

variable {α σ : Type}

/-- A call to update the cost of a neighbor, with the monitor that it finds. -/
structure Revision (α σ : Type) where
  monitor : Monitor α σ
  neighbor : Name
  /-- The cost by round-trip times. -/
  cost : α

/-- The cost of an active neighbor in the table can be changed. -/
theorem MonitorState.of_revisable? {m : MonitorState α} {n : Name} {advertised : α}
    {metrics : LinkMetrics α} (h : m.revisable? n = some (advertised, metrics)) :
    ∃ link, m.neighbors.linkCost? n = some advertised ∧ m.links[n]? = some link ∧
      link.status = .active ∧ metrics = link.metrics := by
  unfold revisable? at h
  split at h
  · next link hadvertised hlink =>
    split at h
    · cases h
    · next hstatus =>
      cases h
      cases hs : link.status with
      | active => exact ⟨link, hadvertised, hlink, hs, rfl⟩
      | inactive => exact absurd hs hstatus
  · cases h

namespace Revision

variable [Scalar α]

/-- The monitor after the call. -/
def result (r : Revision α σ) : Monitor α σ := r.monitor.updateCost r.neighbor r.cost

/-- The usable answer of the transform, shown this view of the link. -/
def answer? (r : Revision α σ) (metrics : LinkMetrics α) : Option α :=
  match r.monitor.hooks.transform with
  | none => none
  | some transform =>
    (transform r.monitor.clock r.neighbor r.cost metrics r.monitor.memory).1.filter isUsable

/-- The cost that the revision comes to. -/
def final (r : Revision α σ) (metrics : LinkMetrics α) : α := (r.answer? metrics).getD r.cost

/-- The cost that is written and the table with this cost in it, if it is written. -/
def written? (r : Revision α σ) : Option (α × AdjacencyTable α) :=
  match r.monitor.revisable? r.neighbor with
  | none => none
  | some (advertised, metrics) =>
    if isFine r.monitor.settings.fineThreshold advertised (r.final metrics) then none
    else (r.monitor.writtenCost? r.monitor.neighbors r.neighbor (r.final metrics)).map
      (r.final metrics, ·)

/-- A cost that makes a difference is written if the table takes it. -/
theorem written?_of_coarse {r : Revision α σ} {advertised : α} {metrics : LinkMetrics α}
    (h : r.monitor.revisable? r.neighbor = some (advertised, metrics))
    (hcoarse : isFine r.monitor.settings.fineThreshold advertised (r.final metrics) = false) :
    r.written? = (r.monitor.writtenCost? r.monitor.neighbors r.neighbor (r.final metrics)).map
      (r.final metrics, ·) := by
  rw [written?, h]
  exact if_neg (Bool.not_eq_true _ ▸ hcoarse)

/-- The cost that comes out of a transform is the final one of the revision. -/
theorem transformed_fst (r : Revision α σ) (metrics : LinkMetrics α) :
    (r.monitor.transformed r.neighbor r.cost metrics).1 = r.final metrics := by
  unfold Monitor.transformed final answer?
  cases r.monitor.hooks.transform with
  | none => rfl
  | some transform => rfl

/-- A cost that is written is put in force; without a write the call leaves the state as it was. -/
theorem toMonitorState_result (r : Revision α σ) : r.result.toMonitorState =
    r.written?.elim r.monitor.toMonitorState fun write =>
      { r.monitor.toMonitorState with neighbors := write.2 }.adoptCost r.neighbor write.1 := by
  unfold written? result Monitor.updateCost
  cases r.monitor.revisable? r.neighbor with
  | none => rfl
  | some revisable =>
    dsimp only [Monitor.act]
    rw [transformed_fst, Monitor.toMonitorState_transformed, MonitorState.applyCost]
    split
    · rfl
    · cases r.monitor.writtenCost? r.monitor.neighbors r.neighbor (r.final revisable.2) with
      | none => rfl
      | some table => rfl

/-- If nothing is written, the call leaves the state as it was. -/
theorem result_of_unwritten {r : Revision α σ} (h : r.written? = none) :
    r.result.toMonitorState = r.monitor.toMonitorState := by
  rw [toMonitorState_result, h, Option.elim_none]

/-- What is written is put in force. -/
theorem result_of_written {r : Revision α σ} {cost : α} {neighbors : AdjacencyTable α}
    (h : r.written? = some (cost, neighbors)) : r.result.toMonitorState =
      { r.monitor.toMonitorState with neighbors }.adoptCost r.neighbor cost := by
  rw [toMonitorState_result, h, Option.elim_some]

/-- A cost is written only for a neighbor that is active and in a table that takes costs. -/
theorem of_written {r : Revision α σ} {cost : α} {neighbors : AdjacencyTable α}
    (h : r.written? = some (cost, neighbors)) : ∃ advertised link,
      r.monitor.neighbors.linkCost? r.neighbor = some advertised ∧
      r.monitor.links[r.neighbor]? = some link ∧ link.status = .active ∧
      cost = r.final link.metrics ∧
      r.monitor.neighbors.Repriced r.neighbor (fun _ => cost) neighbors := by
  unfold written? at h
  split at h
  · cases h
  · next advertised metrics hsome =>
    obtain ⟨link, hadvertised, hlink, hactive, rfl⟩ := MonitorState.of_revisable? hsome
    split at h
    · cases h
    · obtain ⟨table, htable, heq⟩ := Option.map_eq_some_iff.1 h
      cases heq
      exact ⟨advertised, link, hadvertised, hlink, hactive, rfl,
        MonitorState.repriced_writtenCost? htable⟩

/-- The cost that is written is in force and in the table. -/
theorem costs_of_written {r : Revision α σ} {cost : α} {neighbors : AdjacencyTable α}
    (h : r.written? = some (cost, neighbors)) :
    r.result.currentCost? r.neighbor = some cost ∧
      r.result.neighbors.linkCost? r.neighbor = some cost := by
  obtain ⟨advertised, link, hadvertised, hlink, -, -, hrepriced⟩ := of_written h
  obtain ⟨hcurrent, hneighbors⟩ := MonitorState.currentCost?_adoptCost
    { r.monitor.toMonitorState with neighbors } r.neighbor cost r.neighbor
  rw [result_of_written h]
  refine ⟨?_, ?_⟩
  · rw [hcurrent, if_pos rfl, MonitorState.currentCost?, hlink, Option.map_some, Option.map_some]
  · rw [hneighbors, hrepriced.self, hadvertised, Option.map_some]

end Revision

namespace MonitorState

/-- The state once the outcome of a probe has been taken, before any cost is revised. -/
def take (m : MonitorState α) (o : ProbeOutcome) : MonitorState α :=
  match o.kind with
  | .data => (m.measure o.seq).2
  | .nack | .timeout => m.forget o.seq

/-- What is pending, what has been measured and the links are all that an outcome touches. -/
theorem take_eq (m : MonitorState α) (o : ProbeOutcome) : ∃ links pending measured,
    m.take o = { m with links, pending, stats.measured := measured } := by
  unfold take
  split
  · rcases m.measure_cases o.seq with ⟨-, hm⟩ | ⟨_, -, ⟨-, hm⟩ | ⟨_, -, hm⟩⟩
    · exact ⟨_, _, _, by rw [hm]⟩
    · exact ⟨_, _, _, by rw [hm]⟩
    · exact ⟨_, _, _, by rw [hm]⟩
  · exact ⟨_, _, _, rfl⟩
  · exact ⟨_, _, _, rfl⟩

/-- An outcome leaves whatever is read off a link besides its round-trip times. -/
theorem map_take (m : MonitorState α) (o : ProbeOutcome) {β : Type} (f : LinkState α → β)
    (hf : ∀ l rtt, f (l.record rtt) = f l) (n : Name) :
    (m.take o).links[n]?.map f = m.links[n]?.map f := by
  unfold take
  split
  · rcases m.measure_cases o.seq with ⟨-, hm⟩ | ⟨_, -, ⟨-, hm⟩ | ⟨rtt, -, hm⟩⟩
    · rw [hm]
    · rw [hm]
    · rw [hm]
      exact m.map_recordRtt _ rtt f (fun l => hf l rtt) n
  · rfl
  · rfl

/-- A round-trip time is recorded for a stable link. -/
theorem of_recordRtt {m : MonitorState α} {n : Name} {rtt : Duration} {x : Measurement α}
    (h : (m.recordRtt n rtt).1 = some x) :
    (m.recordRtt n rtt).2.links[n]? = some x.link ∧ x.link.isStable = true := by
  unfold recordRtt at h ⊢
  cases hlink : m.links[n]? with
  | none => simp [hlink] at h
  | some link =>
    cases hstable : link.isStable with
    | false => simp [hlink, hstable] at h
    | true =>
      obtain rfl : ⟨link.record rtt, rtt⟩ = x := by simpa [hlink, hstable] using h
      exact ⟨by simp [hstable], hstable⟩

/-- A round-trip time that is accepted belongs to a stable link. -/
theorem of_measure {m : MonitorState α} {seq : UInt32} {n : Name} {x : Measurement α}
    (h : (m.measure seq).1 = some (n, x)) :
    (m.measure seq).2.links[n]? = some x.link ∧ x.link.isStable = true := by
  rcases m.measure_cases seq with ⟨-, hm⟩ | ⟨probe, -, ⟨-, hm⟩ | ⟨rtt, -, hm⟩⟩
  · rw [hm] at h
    cases h
  · rw [hm] at h
    cases h
  · rw [hm] at h ⊢
    obtain ⟨y, hy, heq⟩ := Option.map_eq_some_iff.1 h
    cases heq
    exact of_recordRtt hy

end MonitorState

namespace Monitor

variable [Scalar α]

/-- The cost that a link is to have after a round-trip time, if this makes a difference. -/
def dueCost? (m : Monitor α σ) (neighbor : Name) (x : MonitorState.Measurement α) : Option α :=
  if m.settings.minCostSamples ≤ x.link.samples then
    (m.newCost? neighbor).filter (m.shouldUpdate neighbor)
  else none

/-- A revision updates the cost if there is one due, and does nothing else. -/
theorem reviseCost_eq (m : Monitor α σ) (n : Name) (x : MonitorState.Measurement α) :
    m.reviseCost n x = (m.dueCost? n x).elim m (m.updateCost n) := by
  unfold reviseCost dueCost?
  split
  · cases m.newCost? n with
    | none => rfl
    | some cost =>
      dsimp only
      cases h : m.shouldUpdate n cost <;> simp [Option.filter, h]
  · rfl

/-- The call to update a cost that the answer to a probe leads to. -/
def answerRevision? (m : Monitor α σ) (seq : UInt32) : Option (Revision α σ) :=
  (m.measure seq).1.bind fun measured =>
    let told := { m with toMonitorState := (m.measure seq).2 }.tellPerformance measured.1 measured.2
    (told.dueCost? measured.1 measured.2).map (⟨told, measured.1, ·⟩)

/-- The call to update a cost that an operation leads to. -/
def revision? (m : Monitor α σ) : Operation α σ → Option (Revision α σ)
  | .updateCost neighbor cost => some ⟨m, neighbor, cost⟩
  | .outcome o => if o.kind = .data then m.answerRevision? o.seq else none
  | _ => none

variable {m : Monitor α σ} {o : ProbeOutcome} {r : Revision α σ}

/-- An answer that has a revision of a cost to make ends with that revision. -/
theorem handleResponse_of_revision? {seq : UInt32} (h : m.answerRevision? seq = some r) :
    m.handleResponse seq = r.result := by
  obtain ⟨⟨n, x⟩, hmeasured, h⟩ := Option.bind_eq_some_iff.1 h
  obtain ⟨cost, hcost, rfl⟩ := Option.map_eq_some_iff.1 h
  dsimp only [handleResponse]
  rw [hmeasured]
  dsimp only
  rw [reviseCost_eq, hcost]
  rfl

/-- An answer without a revision of a cost is measured and nothing more. -/
theorem handleResponse_of_unrevised {seq : UInt32} (h : m.answerRevision? seq = none) :
    (m.handleResponse seq).toMonitorState = (m.measure seq).2 := by
  unfold answerRevision? at h
  dsimp only [handleResponse]
  cases hmeasured : (m.measure seq).1 with
  | none => rfl
  | some measured =>
    obtain ⟨n, x⟩ := measured
    rw [hmeasured] at h
    dsimp only
    rw [reviseCost_eq, Option.map_eq_none_iff.1 h]
    exact toMonitorState_tellPerformance _ n x

/-- An answer with data is handled as a response. -/
theorem handleOutcome_of_data (h : o.kind = .data) :
    m.handleOutcome o = m.handleResponse o.seq := by
  unfold handleOutcome
  rw [h]

/-- The revision is all that the operation does. -/
theorem apply_of_revision? {op : Operation α σ} (h : m.revision? op = some r) :
    m.apply op = r.result := by
  cases op with
  | updateCost n cost =>
    cases h
    rfl
  | outcome o =>
    obtain ⟨hkind, h⟩ := Option.ite_none_right_eq_some.1 h
    exact (handleOutcome_of_data hkind).trans (handleResponse_of_revision? h)
  | _ => cases h

/-- An outcome that leads to no revision is taken, and that is all. -/
theorem apply_of_unrevised (h : m.revision? (.outcome o) = none) :
    (m.apply (.outcome o)).toMonitorState = m.take o := by
  show (m.handleOutcome o).toMonitorState = m.take o
  unfold MonitorState.take
  cases hkind : o.kind with
  | nack | timeout =>
    unfold handleOutcome
    rw [hkind]
    rfl
  | data =>
    rw [revision?, if_pos hkind] at h
    rw [handleOutcome_of_data hkind]
    exact handleResponse_of_unrevised h

/-- A revision that an outcome leads to comes after the outcome has been taken, and finds a stable
link. -/
theorem stable_of_revision? (h : m.revision? (.outcome o) = some r) :
    r.monitor.toMonitorState = m.take o ∧
    ∃ link, r.monitor.links[r.neighbor]? = some link ∧ link.isStable = true := by
  obtain ⟨hkind, h⟩ := Option.ite_none_right_eq_some.1 h
  obtain ⟨⟨n, x⟩, hmeasured, h⟩ := Option.bind_eq_some_iff.1 h
  obtain ⟨cost, hcost, rfl⟩ := Option.map_eq_some_iff.1 h
  obtain ⟨hlink, hstable⟩ := MonitorState.of_measure hmeasured
  rw [toMonitorState_tellPerformance, MonitorState.take, hkind]
  exact ⟨rfl, x.link, hlink, hstable⟩

/-- Apart from costs, an outcome changes a link only when it is taken. -/
theorem sameStanding_outcome (m : Monitor α σ) (o : ProbeOutcome) :
    SameStanding (m.take o).links (m.apply (.outcome o)).links := by
  cases hr : m.revision? (.outcome o) with
  | none => exact .of_eq (congrArg (·.links) (apply_of_unrevised hr))
  | some r =>
    rw [apply_of_revision? hr, ← (stable_of_revision? hr).1]
    exact (costsDiffer_updateCost r.monitor r.neighbor r.cost).2.sameStanding

end Monitor

end AdaptiveRouting
