import AdaptiveRouting.Monitor.Control
import AdaptiveRouting.Monitor.Costs

/-!
# Runs of the monitor

Everything that can happen to a monitor is an `Operation`: what its owner calls, what the hello
protocol and the probes have to tell, the passing of time, and whatever the rest of the router does
to the surroundings. A run is a list of operations that are applied one after the other
(`Monitor.run`), and a state is reachable when a run leads to it from a monitor that knows no
neighbor (`Monitor.Reachable`). Nothing but the passing of time moves the clock.

A run never empties the outbox, so what is in it at the end is all that has left the monitor.

Two ways to reason about a run stand here once and for all: what every step keeps is kept by the run
(`Monitor.run_keeps`), and if a step keeps a property exactly when it is sound, the property holds
all along a run exactly if the steps are (`Monitor.holds_along_iff`).
-/

namespace AdaptiveRouting

/-- What can happen to a monitor. -/
inductive Operation (α σ : Type) where
  | adoptNeighbors
  | start
  | stop
  | poll
  /-- The timer of a neighbor is armed afresh. -/
  | scheduleProbe (neighbor : Name)
  | sendProbe (neighbor : Name)
  | outcome (o : ProbeOutcome)
  | news (e : NeighborEvent)
  /-- A new cost by round-trip times is applied to a neighbor. -/
  | updateCost (neighbor : Name) (cost : α)
  | report
  /-- Others set the hooks, or change what the hooks remember. -/
  | setHooks (hooks : Hooks α σ) (memory : σ)
  | advance (elapsed : Duration)
  /-- Others change the surroundings, where time stands still. -/
  | surround (change : Surroundings α → Surroundings α)

/-- The surroundings of a router without neighbors, when time begins. -/
def Surroundings.quiet {α : Type} : Surroundings α where
  clock := .startingAt 0
  neighbors := .empty
  costsLocked := false
  rebuild := .idle
  schedule := .idle 0
  outlet _ := true
  jitter _ := 0

/-- Changes the surroundings at one instant. -/
def MonitorState.surround {α : Type} (m : MonitorState α)
    (change : Surroundings α → Surroundings α) : MonitorState α :=
  { m with
    toSurroundings := { change m.toSurroundings with
      clock := { (change m.toSurroundings).clock with now := m.clock.now } } }

namespace Monitor

variable {α σ : Type} [Scalar α]

/-- What an operation makes of a monitor. -/
def apply (m : Monitor α σ) : Operation α σ → Monitor α σ
  | .adoptNeighbors => m.act (·.adoptNeighbors)
  | .start => m.act (·.start)
  | .stop => m.act (·.stop)
  | .poll => m.act (·.poll)
  | .scheduleProbe neighbor => m.act (·.scheduleProbe neighbor)
  | .sendProbe neighbor => m.act fun s => (s.sendProbe neighbor).2
  | .outcome o => m.handleOutcome o
  | .news e => m.act (·.handleNews e)
  | .updateCost neighbor cost => m.updateCost neighbor cost
  | .report => m.act (·.report)
  | .setHooks hooks memory => { m with hooks, memory }
  | .advance elapsed => m.act fun s => { s with clock := s.clock.advance elapsed }
  | .surround change => m.act (·.surround change)

/-- What a list of operations makes of a monitor. -/
def run (m : Monitor α σ) (ops : List (Operation α σ)) : Monitor α σ := ops.foldl apply m

@[simp] theorem run_nil (m : Monitor α σ) : m.run [] = m := rfl

@[simp] theorem run_cons (m : Monitor α σ) (op : Operation α σ) (ops : List (Operation α σ)) :
    m.run (op :: ops) = (m.apply op).run ops := rfl

/-- A run can be cut in two. -/
theorem run_append (m : Monitor α σ) (ops later : List (Operation α σ)) :
    m.run (ops ++ later) = (m.run ops).run later := List.foldl_append

/-- The steps of a run: each operation with the state that it finds. -/
def steps (m : Monitor α σ) : List (Operation α σ) → List (Monitor α σ × Operation α σ)
  | [] => []
  | op :: ops => (m, op) :: (m.apply op).steps ops

@[simp] theorem map_snd_steps (m : Monitor α σ) (ops : List (Operation α σ)) :
    (m.steps ops).map (·.2) = ops := by
  induction ops generalizing m with
  | nil => rfl
  | cons op ops ih => rw [steps, List.map_cons, ih]

/-- The operation of a step is one of the run's. -/
theorem mem_of_mem_steps {m : Monitor α σ} {ops : List (Operation α σ)}
    {s : Monitor α σ × Operation α σ} (hs : s ∈ m.steps ops) : s.2 ∈ ops := by
  rw [← m.map_snd_steps ops]
  exact List.mem_map_of_mem hs

/-- A step finds the state that the operations before it have led to. -/
theorem exists_run_of_mem_steps {m : Monitor α σ} {ops : List (Operation α σ)}
    {s : Monitor α σ × Operation α σ} (hs : s ∈ m.steps ops) :
    ∃ before after, ops = before ++ s.2 :: after ∧ s.1 = m.run before := by
  induction ops generalizing m with
  | nil => cases hs
  | cons op ops ih =>
    rcases List.mem_cons.1 hs with rfl | hs
    · exact ⟨[], ops, rfl, rfl⟩
    · obtain ⟨before, after, rfl, hrun⟩ := ih hs
      exact ⟨op :: before, after, rfl, hrun⟩

/-- The steps of a run that goes on. -/
theorem steps_append (m : Monitor α σ) (ops later : List (Operation α σ)) :
    m.steps (ops ++ later) = m.steps ops ++ (m.run ops).steps later := by
  induction ops generalizing m with
  | nil => rfl
  | cons op ops ih => rw [List.cons_append, steps, steps, run_cons, ih, List.cons_append]

/-- What every step of a run keeps is kept by the run. -/
theorem run_keeps {P : Monitor α σ → Prop} {m : Monitor α σ} {ops : List (Operation α σ)} (h : P m)
    (hsteps : ∀ s ∈ m.steps ops, P s.1 → P (s.1.apply s.2)) : P (m.run ops) := by
  induction ops generalizing m with
  | nil => exact h
  | cons op ops ih =>
    obtain ⟨hop, hops⟩ := List.forall_mem_cons.1 hsteps
    exact ih (hop h) hops

/-- Let a step that finds an invariant keep it, and keep a property exactly if it is a sound step.
Then the property holds all along a run exactly if every step of the run is sound. -/
theorem holds_along_iff {I P : Monitor α σ → Prop} {S : Monitor α σ × Operation α σ → Prop}
    {m : Monitor α σ} {ops : List (Operation α σ)} (hI : I m) (hP : P m)
    (hsteps : ∀ s ∈ m.steps ops, I s.1 →
      I (s.1.apply s.2) ∧ (P s.1 → (P (s.1.apply s.2) ↔ S s))) :
    (∀ done, done <+: ops → P (m.run done)) ↔ ∀ s ∈ m.steps ops, S s := by
  induction ops generalizing m with
  | nil =>
    refine iff_of_true (fun done hdone => ?_) fun s hs => absurd hs List.not_mem_nil
    rwa [List.prefix_nil.1 hdone, run_nil]
  | cons op ops ih =>
    obtain ⟨hfirst, hrest⟩ := List.forall_mem_cons.1 hsteps
    obtain ⟨hnext, hstep⟩ := hfirst hI
    constructor
    · intro halong
      have hafter : P (m.apply op) := halong [op] (List.prefix_append [op] ops)
      refine List.forall_mem_cons.2 ⟨(hstep hP).1 hafter, (ih hnext hafter hrest).1 ?_⟩
      exact fun done hdone => halong (op :: done) ((List.prefix_cons_inj op).2 hdone)
    · intro hsound done hdone
      obtain ⟨hop, hops⟩ := List.forall_mem_cons.1 hsound
      rcases List.prefix_cons_iff.1 hdone with rfl | ⟨rest, rfl, hprefix⟩
      · exact hP
      · exact (ih hnext ((hstep hP).2 hop) hrest).2 hops rest hprefix

/-- The states that a run leads to. -/
inductive Reachable : Monitor α σ → Prop where
  /-- A run starts without any neighbor. -/
  | idle (surroundings : Surroundings α) (settings : LinkSettings α) (memory : σ) :
      Reachable (.idle surroundings settings memory)
  /-- An operation leads on. -/
  | apply {m : Monitor α σ} (op : Operation α σ) : Reachable m → Reachable (m.apply op)

/-- A run from a state that can be reached leads to one. -/
theorem Reachable.run {m : Monitor α σ} (h : Reachable m) (ops : List (Operation α σ)) :
    Reachable (m.run ops) := run_keeps h fun s _ hs => hs.apply s.2

end Monitor

end AdaptiveRouting
