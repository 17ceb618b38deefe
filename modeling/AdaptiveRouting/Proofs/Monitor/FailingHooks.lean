import AdaptiveRouting.Proofs.Monitor.News

/-!
# Hooks that fail

A hook acts on the state of the monitor only through the cost that a transform answers, and this
answer counts only if it can serve as a cost. A transform that never has such an answer
(`CostTransform.Fails`) therefore leaves every cost as it would be without it, and a hook that hears
of performance acts on nothing but its own memory. So a run with such hooks is, state by state, the
run without hooks (`failing_hooks_change_nothing`).

The run without hooks is made of the same operations, where none are set (`Operation.unhooked`), and
starts from the same state (`Monitor.unhooked`); to take the hooks away commutes with every operation
(`Monitor.unhooked_apply`).
-/

namespace AdaptiveRouting

variable {α σ : Type} [Scalar α]

/-- The transform never has an answer that can serve as a cost: it fails, or what it answers is
infinite, or no number, or a number that is not positive. -/
def CostTransform.Fails (t : CostTransform α σ) : Prop :=
  ∀ clock neighbor cost metrics memory answer,
    (t clock neighbor cost metrics memory).1 = some answer →
      Scalar.isFinite answer = false ∨ ¬ 0.0 < answer

/-- The hooks transform no cost; what they do when they hear of performance is up to them. -/
def Hooks.Harmless (h : Hooks α σ) : Prop := ∀ t, h.transform = some t → CostTransform.Fails t

/-- An answer that cannot serve as a cost is dropped. -/
theorem CostTransform.Fails.filter_isUsable {t : CostTransform α σ} (h : t.Fails) (clock : Clock)
    (neighbor : Name) (cost : α) (metrics : LinkMetrics α) (memory : σ) :
    (t clock neighbor cost metrics memory).1.filter isUsable = none := by
  rw [Option.filter_eq_none_iff]
  intro answer hanswer husable
  obtain ⟨hfinite, hpos⟩ : Scalar.isFinite answer = true ∧ 0.0 < answer := by
    simpa [isUsable] using husable
  rcases h clock neighbor cost metrics memory answer hanswer with hnot | hnot
  · rw [hfinite] at hnot
    cases hnot
  · exact hnot hpos

/-- The operation where no hooks are set. -/
def Operation.unhooked : Operation α σ → Operation α Unit
  | .adoptNeighbors => .adoptNeighbors
  | .start => .start
  | .stop => .stop
  | .poll => .poll
  | .scheduleProbe neighbor => .scheduleProbe neighbor
  | .sendProbe neighbor => .sendProbe neighbor
  | .outcome o => .outcome o
  | .news e => .news e
  | .updateCost neighbor cost => .updateCost neighbor cost
  | .report => .report
  | .setHooks _ _ => .setHooks .none ()
  | .advance elapsed => .advance elapsed
  | .surround change => .surround change

namespace Monitor

/-- The monitor in the same state without hooks. -/
def unhooked (m : Monitor α σ) : Monitor α Unit where
  toMonitorState := m.toMonitorState
  hooks := .none
  memory := ()

variable {m : Monitor α σ}

/-- A transform that fails changes neither the cost nor the state. -/
theorem transformed_of_harmless (h : m.hooks.Harmless) (neighbor : Name) (cost : α)
    (metrics : LinkMetrics α) :
    ∃ memory, m.transformed neighbor cost metrics = (cost, { m with memory }) := by
  unfold transformed
  split
  · exact ⟨_, rfl⟩
  · next t ht =>
    dsimp only
    rw [(h t ht).filter_isUsable]
    exact ⟨_, rfl⟩

/-- A cost is updated as it would be without the hooks. -/
theorem unhooked_updateCost (h : m.hooks.Harmless) (neighbor : Name) (cost : α) :
    (m.updateCost neighbor cost).unhooked = m.unhooked.updateCost neighbor cost := by
  unfold updateCost
  rw [show m.unhooked.revisable? neighbor = m.revisable? neighbor from rfl]
  cases m.revisable? neighbor with
  | none => rfl
  | some advertised =>
    obtain ⟨memory, heq⟩ := transformed_of_harmless h neighbor cost advertised.2
    dsimp only
    rw [heq]
    rfl

/-- A cost is revised as it would be without the hooks. -/
theorem unhooked_reviseCost (h : m.hooks.Harmless) (neighbor : Name)
    (x : MonitorState.Measurement α) :
    (m.reviseCost neighbor x).unhooked = m.unhooked.reviseCost neighbor x := by
  unfold reviseCost
  rw [show m.unhooked.newCost? neighbor = m.newCost? neighbor from rfl]
  by_cases hsamples : m.settings.minCostSamples ≤ x.link.samples
  · rw [if_pos hsamples, if_pos (show m.unhooked.settings.minCostSamples ≤ _ from hsamples)]
    cases m.newCost? neighbor with
    | none => rfl
    | some cost =>
      dsimp only
      rw [apply_ite unhooked, unhooked_updateCost h]
      rfl
  · rw [if_neg hsamples, if_neg (show ¬ m.unhooked.settings.minCostSamples ≤ _ from hsamples)]

/-- A round-trip time is heard of, and then the cost may be revised. -/
theorem unhooked_tell_revise (h : m.hooks.Harmless) (neighbor : Name)
    (x : MonitorState.Measurement α) :
    ((m.tellPerformance neighbor x).reviseCost neighbor x).unhooked =
      (m.unhooked.tellPerformance neighbor x).reviseCost neighbor x := by
  -- the hook that hears of the time changes the memory alone, and the transform stays what it was
  have htold : (m.tellPerformance neighbor x).hooks.Harmless := by
    rw [(m.costsDiffer_tellPerformance neighbor x).1]
    exact h
  have hsame : (m.tellPerformance neighbor x).unhooked = m.unhooked := by
    rw [unhooked, m.toMonitorState_tellPerformance neighbor x]
    rfl
  rw [unhooked_reviseCost htold, hsame]
  rfl

/-- An answer is handled as it would be without the hooks. -/
theorem unhooked_handleResponse (h : m.hooks.Harmless) (seq : UInt32) :
    (m.handleResponse seq).unhooked = m.unhooked.handleResponse seq := by
  unfold handleResponse
  rw [show m.unhooked.measure seq = m.measure seq from rfl]
  dsimp only
  cases (m.measure seq).1 with
  | none => rfl
  | some measured =>
    obtain ⟨neighbor, x⟩ := measured
    exact unhooked_tell_revise (m := { m with toMonitorState := (m.measure seq).2 }) h neighbor x

/-- The outcome of a probe is handled as it would be without the hooks. -/
theorem unhooked_handleOutcome (h : m.hooks.Harmless) (o : ProbeOutcome) :
    (m.handleOutcome o).unhooked = m.unhooked.handleOutcome o := by
  unfold handleOutcome
  cases o.kind with
  | data => exact unhooked_handleResponse h o.seq
  | nack | timeout => rfl

/-- To take away hooks that transform no cost commutes with every operation. -/
theorem unhooked_apply (h : m.hooks.Harmless) (op : Operation α σ) :
    (m.apply op).unhooked = m.unhooked.apply op.unhooked := by
  cases op with
  | outcome o => exact unhooked_handleOutcome h o
  | updateCost neighbor cost => exact unhooked_updateCost h neighbor cost
  | adoptNeighbors | start | stop | poll | scheduleProbe _ | sendProbe _ | news _ | report
  | setHooks _ _ | advance _ | surround _ => rfl

/-- Whatever hooks are set transform no cost. -/
def SetsHarmless (ops : List (Operation α σ)) : Prop :=
  ∀ hooks memory, .setHooks hooks memory ∈ ops → hooks.Harmless

/-- To take away hooks that transform no cost commutes with every run that sets only such hooks. -/
theorem unhooked_run {ops : List (Operation α σ)} (h : m.hooks.Harmless) (hops : SetsHarmless ops) :
    (m.run ops).unhooked = m.unhooked.run (ops.map Operation.unhooked) := by
  induction ops generalizing m with
  | nil => rfl
  | cons op ops ih =>
    -- hooks set on the way do no harm either, so the invariant is there for the rest
    rw [run_cons, List.map_cons, run_cons, ← unhooked_apply h]
    refine ih (hooks_apply (P := Hooks.Harmless) h fun hooks memory heq => ?_)
      fun hooks memory hmem => hops hooks memory (List.mem_cons_of_mem _ hmem)
    exact hops hooks memory (heq ▸ List.mem_cons_self ..)

end Monitor

/-- **Hooks that fail change nothing.** Let the transforms that are set during a run have no answer
that can serve as a cost, and the hooks that hear of performance do what they like. After every
operation the state is the one that the same operations lead to without any hooks: the links, the
pending probes, the timers, the statistics, the neighbor table, the requests to rebuild, the
schedule, and whatever has left the monitor. -/
theorem failing_hooks_change_nothing {m : Monitor α σ} {ops done : List (Operation α σ)}
    (h : m.hooks.Harmless) (hops : Monitor.SetsHarmless ops) (hdone : done <+: ops) :
    (m.run done).toMonitorState = (m.unhooked.run (done.map Operation.unhooked)).toMonitorState :=
  congrArg Monitor.toMonitorState
    (Monitor.unhooked_run h fun hooks memory hmem => hops hooks memory (hdone.subset hmem))

namespace Unhelpful

def neighbor : Name := { components := ["colleague"] }

/-- A transform that fails in another way each time it is asked. -/
def transform : CostTransform Float Nat := fun _ _ _ _ asked =>
  (match asked % 4 with
    | 0 => none
    | 1 => some (0.0 / 0.0)
    | 2 => some (1.0 / 0.0)
    | _ => some (0.0 - 1.0), asked + 1)

/-- Whatever it is asked, and however often, the transform has no answer. -/
theorem fails_transform : CostTransform.Fails transform := by
  intro clock neighbor cost metrics asked answer hanswer
  unfold transform at hanswer
  dsimp only at hanswer
  split at hanswer
  · cases hanswer
  · cases hanswer
    exact .inl rfl
  · cases hanswer
    exact .inl rfl
  · cases hanswer
    exact .inr (by decide)

/-- The transform is asked four times, between other events, and something hears of performance. -/
def ops : List (Operation Float Nat) :=
  [.adoptNeighbors, .setHooks ⟨some transform, some fun _ _ _ asked => asked + 100⟩ 0, .start,
    .updateCost neighbor 12.0, .updateCost neighbor 14.0, .news (.helloTimeout neighbor 1),
    .updateCost neighbor 17.0, .updateCost neighbor 20.0, .stop]

def monitor : Monitor Float Nat :=
  .idle { (Surroundings.quiet : Surroundings Float) with
    neighbors := .ofList [⟨neighbor, .active, 10.0, 10.0, 0⟩] } .standard 0

/-- A transform that is asked again and again, and fails each time. -/
theorem failing_hooks_unhelpful :
    monitor.hooks.Harmless ∧ Monitor.SetsHarmless ops ∧ (monitor.run ops).memory = 4 ∧
    ∀ done, done <+: ops → (monitor.run done).toMonitorState =
      (monitor.unhooked.run (done.map Operation.unhooked)).toMonitorState := by
  have hstart : monitor.hooks.Harmless := fun t ht => by cases ht
  have hops : Monitor.SetsHarmless ops := by
    intro hooks memory hmem t ht
    have hset : hooks = ⟨some transform, some fun _ _ _ asked => asked + 100⟩ := by
      simp only [ops, List.mem_cons, List.not_mem_nil, reduceCtorEq, false_or, or_false,
        Operation.setHooks.injEq] at hmem
      exact hmem.1
    subst hset
    cases ht
    exact fails_transform
  have hasked : (monitor.run ops).memory = 4 := by decide +kernel
  exact ⟨hstart, hops, hasked, fun done hdone => failing_hooks_change_nothing hstart hops hdone⟩

end Unhelpful

end AdaptiveRouting
