import AdaptiveRouting.Routing.ShortestPath

/-!
# The cost of a path

A path adds the costs of its links from the source on, and nothing more than two properties of this
addition is needed to speak of the cheapest path: adding a cost does not make a sum smaller, and it
does not reverse the order of two sums. `PathArithmetic` states them of the numbers that are at
least zero, which the admitted links have as costs; about other numbers, such as results that are
undefined, it says nothing. Exact arithmetic has both properties, and so has one that rounds.

A path may run in circles. A `Trail` visits no router twice, and every path has a trail to its end
that costs no more (`Path.exists_trail`). A trail visits no more routers than there are, which is
why a bounded number of rounds finds every cheapest path.
-/

namespace AdaptiveRouting

/-- Arithmetic in which the costs of paths can be compared. The numbers that are at least zero are
ordered linearly, and the order agrees with the comparisons `<` and `==` of the program; to add such
a number never decreases a sum and never reverses an inequality. -/
class PathArithmetic (α : Type) [Scalar α] : Prop where
  zero_le_zero : (0.0 : α) ≤ 0.0
  le_trans {a b c : α} : a ≤ b → b ≤ c → a ≤ c
  le_antisymm {a b : α} : 0.0 ≤ a → a ≤ b → b ≤ a → a = b
  le_total {a b : α} : 0.0 ≤ a → 0.0 ≤ b → a ≤ b ∨ b ≤ a
  /-- A cost is below another one when the other one is not at most as large. -/
  lt_iff_not_le {a b : α} : 0.0 ≤ a → 0.0 ≤ b → (a < b ↔ ¬ b ≤ a)
  /-- Costs that pass for equal are equal. -/
  beq_iff_eq {a b : α} : 0.0 ≤ a → 0.0 ≤ b → ((a == b) = true ↔ a = b)
  /-- A cost does not decrease what it is added to. -/
  le_add {a c : α} : 0.0 ≤ a → 0.0 ≤ c → a ≤ a + c
  /-- A cost that is added on both sides does not reverse an inequality. -/
  add_le_add {a b c : α} : 0.0 ≤ a → a ≤ b → 0.0 ≤ c → a + c ≤ b + c

variable {α : Type} [Scalar α]

/-- A cost that is not negative is no more than itself. -/
theorem PathArithmetic.le_refl [PathArithmetic α] {a : α} (h : 0.0 ≤ a) : a ≤ a :=
  (PathArithmetic.le_total h h).elim id id

/-- The sum of costs that are not negative is not negative. -/
theorem PathArithmetic.add_nonneg [PathArithmetic α] {a c : α} (ha : 0.0 ≤ a) (hc : 0.0 ≤ c) :
    0.0 ≤ a + c :=
  PathArithmetic.le_trans ha (PathArithmetic.le_add ha hc)

/-- Links of which none has a cost that is negative or undefined. -/
def NonnegativeLinks (links : List (Link α)) : Prop := ∀ l ∈ links, (0.0 : α) ≤ l.cost

/-- The links that count cost nothing negative. -/
theorem TopologyMap.nonnegative_admitted (m : TopologyMap α) : NonnegativeLinks m.admitted := by
  intro l hl
  simpa using (List.mem_filter.1 hl).2

/-- The cost of the cheapest paths from `source` to `target`. -/
structure IsLeastCost (links : List (Link α)) (source target : Name) (cost : α) : Prop where
  path : Path links source target cost
  le {c : α} : Path links source target c → cost ≤ c

/-- A path that visits no router twice, with the routers before its end, the latest first. -/
inductive Trail (links : List (Link α)) (source : Name) : Name → List Name → α → Prop where
  | here : Trail links source source [] 0.0
  /-- A path that goes on to a router that it has not visited. -/
  | step {middle : Name} {before : List Name} {cost : α} {l : Link α} :
      Trail links source middle before cost → l ∈ links → l.source = middle →
      l.target ∉ middle :: before → Trail links source l.target (middle :: before) (cost + l.cost)

section
variable {links : List (Link α)} {source target : Name} {cost : α} {before : List Name}

/-- A trail is a path. -/
theorem Trail.path (h : Trail links source target before cost) :
    Path links source target cost := by
  induction h with
  | here => exact .here
  | step _ hl hm _ ih => exact .step ih hl hm

/-- A trail visits no router twice. -/
theorem Trail.nodup (h : Trail links source target before cost) : (target :: before).Nodup := by
  induction h with
  | here => simp
  | step _ _ _ hn ih => exact List.nodup_cons.2 ⟨hn, ih⟩

/-- A trail visits the source and ends of links. -/
theorem Trail.visits (h : Trail links source target before cost) :
    ∀ t ∈ target :: before, t = source ∨ ∃ l ∈ links, l.target = t := by
  induction h with
  | here => simp
  | step _ hl _ _ ih =>
    intro t ht
    rcases List.mem_cons.1 ht with rfl | ht
    · exact .inr ⟨_, hl, rfl⟩
    · exact ih t ht

variable [PathArithmetic α]

/-- No path has a negative cost. -/
theorem Path.nonneg (hlinks : NonnegativeLinks links) (h : Path links source target cost) :
    (0.0 : α) ≤ cost := by
  induction h with
  | here => exact PathArithmetic.zero_le_zero
  | step _ hl _ ih => exact PathArithmetic.add_nonneg ih (hlinks _ hl)

/-- The source is reached at no cost, and by no path for less. -/
theorem isLeastCost_source (hlinks : NonnegativeLinks links) :
    IsLeastCost links source source (0.0 : α) :=
  ⟨.here, fun h => h.nonneg hlinks⟩

/-- There is one least cost at most. -/
theorem IsLeastCost.unique (hlinks : NonnegativeLinks links) {a b : α}
    (ha : IsLeastCost links source target a) (hb : IsLeastCost links source target b) : a = b :=
  PathArithmetic.le_antisymm (ha.path.nonneg hlinks) (ha.le hb.path) (hb.le ha.path)

/-- A trail can be broken off at any router that it visits, and then it costs no more. -/
theorem Trail.cut (hlinks : NonnegativeLinks links) (h : Trail links source target before cost)
    {t : Name} (ht : t ∈ target :: before) :
    ∃ before' c, Trail links source t before' c ∧ c ≤ cost := by
  induction h with
  | here =>
    obtain rfl := List.mem_singleton.1 ht
    exact ⟨[], 0.0, .here, PathArithmetic.zero_le_zero⟩
  | @step middle before cost l hv hl hm hn ih =>
    have hcost : (0.0 : α) ≤ cost := hv.path.nonneg hlinks
    have hup : cost ≤ cost + l.cost := PathArithmetic.le_add hcost (hlinks l hl)
    rcases List.mem_cons.1 ht with rfl | ht
    · exact ⟨_, _, .step hv hl hm hn, PathArithmetic.le_refl (PathArithmetic.le_trans hcost hup)⟩
    · obtain ⟨before', c, hc, hle⟩ := ih ht
      exact ⟨before', c, hc, PathArithmetic.le_trans hle hup⟩

/-- Every path has a trail to its end that costs no more: where the path comes back to a router
that the trail has visited, the trail is broken off there. -/
theorem Path.exists_trail (hlinks : NonnegativeLinks links)
    (h : Path links source target cost) :
    ∃ before c, Trail links source target before c ∧ c ≤ cost := by
  induction h with
  | here => exact ⟨[], 0.0, .here, PathArithmetic.zero_le_zero⟩
  | @step middle cost l hp hl hm ih =>
    obtain ⟨before, c, hc, hle⟩ := ih
    have hc0 : (0.0 : α) ≤ c := hc.path.nonneg hlinks
    have hl0 := hlinks l hl
    by_cases hv : l.target ∈ middle :: before
    · obtain ⟨before', c', hc', hle'⟩ := hc.cut hlinks hv
      have hup := PathArithmetic.le_add (hp.nonneg hlinks) hl0
      exact ⟨before', c', hc', PathArithmetic.le_trans hle' (PathArithmetic.le_trans hle hup)⟩
    · exact ⟨_, _, .step hc hl hm hv, PathArithmetic.add_le_add hc0 hle hl0⟩

end

end AdaptiveRouting
