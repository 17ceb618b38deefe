import AdaptiveRouting.Routing.Schedule
import Mathlib.Data.List.Induction

/-!
# Calculations run one at a time, and no request is lost

The parties that share a schedule ask it for calculations, try to begin one and end it. Whoever
makes a call, it acts on the one phase that all of them see, so a list of calls in the order in
which they are made is all that there is to say about a history (`Schedule.run`).

In every history a calculation ends before the next one begins, and from a request on one is owed,
by a deadline or by the note to run again, until one begins (`Phase.isOwed`). So there are no more
calculations than requests. If time does not run backwards, a calculation that begins has been
asked for, since the one before it began, at least one interval earlier (`Schedule.OpenRequest`).
`Schedule.SingleFlight` says all this of a history, and `Schedule.singleFlight_of_ordered` that it
is so.
-/

namespace AdaptiveRouting

/-- Whether a calculation is still to begin. -/
def Phase.isOwed : Phase → Bool
  | .idle => false
  | .scheduled _ => true
  | .calculating rerun => rerun

namespace Schedule

/-- What can be asked of a schedule. -/
inductive Action where
  | request
  /-- To begin a calculation if one is due. -/
  | tryBegin
  | finish
deriving DecidableEq

/-- A call of one of the parties that share a schedule. -/
structure Call where
  /-- Who makes it, which makes no difference. -/
  party : Nat
  action : Action
  time : Instant
deriving DecidableEq

def apply (s : Schedule) (c : Call) : Schedule :=
  match c.action with
  | .request => s.request c.time
  | .tryBegin => (s.begin? c.time).getD s
  | .finish => s.finish c.time

/-- What a list of calls makes of a schedule. -/
def run (s : Schedule) (calls : List Call) : Schedule := calls.foldl apply s

/-- Whether a call begins a calculation. -/
def begins (s : Schedule) (c : Call) : Bool :=
  c.action = .tryBegin && (s.begin? c.time).isSome

/-- The calls of a run that begin a calculation. -/
def begun (s : Schedule) : List Call → List Call
  | [] => []
  | c :: rest => if s.begins c then c :: (s.apply c).begun rest else (s.apply c).begun rest

/-- The number of requests among some calls. -/
def requestCount (calls : List Call) : Nat := calls.countP (·.action = .request)

@[simp] theorem run_nil (s : Schedule) : s.run [] = s := rfl

@[simp] theorem run_cons (s : Schedule) (c : Call) (calls : List Call) :
    s.run (c :: calls) = (s.apply c).run calls := rfl

@[simp] theorem run_append (s : Schedule) (calls later : List Call) :
    s.run (calls ++ later) = (s.run calls).run later := List.foldl_append

/-- Along a longer run more calculations begin. -/
theorem begun_append (s : Schedule) (calls later : List Call) :
    s.begun (calls ++ later) = s.begun calls ++ (s.run calls).begun later := by
  induction calls generalizing s with
  | nil => rfl
  | cons c calls ih =>
    rw [List.cons_append, begun, begun, run_cons, ih]
    split <;> rfl

/-- None begins along a run if none does in its first call and none later. -/
theorem begun_eq_nil_cons {s : Schedule} {c : Call} {calls : List Call} :
    s.begun (c :: calls) = [] ↔ s.begins c = false ∧ (s.apply c).begun calls = [] := by
  rw [begun]
  cases s.begins c <;> simp

/-! ## One call -/

/-- Everything that a call can do: it begins a calculation whose deadline has passed, it arms a
deadline, notes to run again or ends a calculation, or it does nothing. -/
theorem apply_cases (s : Schedule) (c : Call) :
    (∃ d, s.phase = .scheduled d ∧ d ≤ c.time ∧ s.begins c = true ∧
      s.apply c = { s with phase := .calculating false }) ∨
    s.begins c = false ∧
      ((c.action = .request ∧ s.phase = .idle ∧
          s.apply c = { s with phase := .scheduled (c.time + s.interval) }) ∨
        (c.action = .request ∧ (∃ rerun, s.phase = .calculating rerun) ∧
          s.apply c = { s with phase := .calculating true }) ∨
        (c.action = .finish ∧ s.phase = .calculating true ∧
          s.apply c = { s with phase := .scheduled (c.time + s.interval) }) ∨
        (c.action = .finish ∧ s.phase = .calculating false ∧
          s.apply c = { s with phase := .idle }) ∨
        (s.apply c = s ∧ (c.action = .request → ∃ d, s.phase = .scheduled d) ∧
          (c.action = .finish → ∀ rerun, s.phase ≠ .calculating rerun))) := by
  obtain ⟨interval, phase⟩ := s
  obtain ⟨party, action, time⟩ := c
  cases action with
  | request => cases phase <;> simp [apply, begins, request]
  | finish =>
    cases phase with
    | idle | scheduled d => simp [apply, begins, finish]
    | calculating rerun => cases rerun <;> simp [apply, begins, finish]
  | tryBegin =>
    cases phase with
    | idle | calculating rerun => simp [apply, begins, begin?]
    | scheduled d => by_cases hd : d ≤ time <;> simp [apply, begins, begin?, hd]

@[simp] theorem interval_apply (s : Schedule) (c : Call) : (s.apply c).interval = s.interval := by
  rcases s.apply_cases c with ⟨_, -, -, -, heq⟩ | ⟨-, ⟨-, -, heq⟩ | ⟨-, -, heq⟩ | ⟨-, -, heq⟩ |
    ⟨-, -, heq⟩ | ⟨heq, -⟩⟩ <;> rw [heq]

@[simp] theorem interval_run (s : Schedule) (calls : List Call) :
    (s.run calls).interval = s.interval := by
  induction calls generalizing s with
  | nil => rfl
  | cons c calls ih => rw [run_cons, ih, interval_apply]

/-- Only an attempt begins a calculation. -/
theorem not_begins_of_action {s : Schedule} {c : Call} (h : c.action ≠ .tryBegin) :
    s.begins c = false := by simp [begins, h]

/-- Nothing but the beginning of a calculation touches a deadline that is armed. -/
theorem apply_of_scheduled {s : Schedule} {c : Call} {d : Instant} (hs : s.phase = .scheduled d)
    (hc : s.begins c = false) : s.apply c = s := by
  rcases s.apply_cases c with ⟨_, -, -, hb, -⟩ | ⟨-, ⟨-, hp, -⟩ | ⟨-, ⟨_, hp⟩, -⟩ | ⟨-, hp, -⟩ |
    ⟨-, hp, -⟩ | ⟨heq, -⟩⟩
  · rw [hc] at hb
    cases hb
  iterate 4
    · rw [hs] at hp
      cases hp
  · exact heq

/-- A calculation that is running goes on until a call ends it, and lets no other one begin. -/
theorem apply_of_calculating {s : Schedule} {c : Call} {rerun : Bool}
    (hs : s.phase = .calculating rerun) (hc : c.action ≠ .finish) :
    s.begins c = false ∧
      (s.apply c).phase = .calculating (rerun || decide (c.action = .request)) := by
  rcases s.apply_cases c with ⟨_, hp, -⟩ | ⟨hb, ⟨-, hp, -⟩ | ⟨ha, -, heq⟩ | ⟨ha, -⟩ | ⟨ha, -⟩ |
    ⟨heq, ha, -⟩⟩
  · rw [hs] at hp
    cases hp
  · rw [hs] at hp
    cases hp
  · exact ⟨hb, by rw [heq, ha]; simp⟩
  · exact absurd ha hc
  · exact absurd ha hc
  · have hno : c.action ≠ .request := fun hr => by
      obtain ⟨_, hd⟩ := ha hr
      rw [hs] at hd
      cases hd
    exact ⟨hb, by rw [heq, hs]; simp [hno]⟩

/-- One calculation more is owed after a request at most, and one less after one has begun. -/
theorem owed_apply (s : Schedule) (c : Call) :
    (s.apply c).phase.isOwed.toNat + (s.begins c).toNat ≤
      s.phase.isOwed.toNat + (decide (c.action = .request)).toNat := by
  rcases s.apply_cases c with ⟨_, hp, -, hb, heq⟩ | ⟨hb, ⟨ha, hp, heq⟩ | ⟨ha, -, heq⟩ |
    ⟨-, hp, heq⟩ | ⟨-, hp, heq⟩ | ⟨heq, -⟩⟩
  · simp [heq, hb, hp, Phase.isOwed]
  · simp [heq, hb, hp, ha, Phase.isOwed]
  · simp [heq, hb, ha, Phase.isOwed]
  · simp [heq, hb, hp, Phase.isOwed]
  · simp [heq, hb, hp, Phase.isOwed]
  · simp [heq, hb]

/-- What is owed remains so until a calculation begins, and a request makes one owed. -/
theorem isOwed_apply {s : Schedule} {c : Call} (hc : s.begins c = false)
    (h : s.phase.isOwed = true ∨ c.action = .request) : (s.apply c).phase.isOwed = true := by
  rcases s.apply_cases c with ⟨_, -, -, hb, -⟩ | ⟨-, ⟨-, -, heq⟩ | ⟨-, -, heq⟩ | ⟨-, -, heq⟩ |
    ⟨ha, hp, -⟩ | ⟨heq, ha, -⟩⟩
  · rw [hc] at hb
    cases hb
  iterate 3
    · rw [heq]
      rfl
  · simp [ha, hp, Phase.isOwed] at h
  · rw [heq]
    rcases h with h | h
    · exact h
    · obtain ⟨d, hd⟩ := ha h
      rw [hd]
      rfl

/-! ## Histories -/

section
variable {s : Schedule} {calls : List Call}

/-- What is owed remains so as long as no calculation begins. -/
theorem isOwed_run (hs : s.phase.isOwed = true) (h : s.begun calls = []) :
    (s.run calls).phase.isOwed = true := by
  induction calls generalizing s with
  | nil => exact hs
  | cons c calls ih =>
    obtain ⟨hc, hrest⟩ := begun_eq_nil_cons.1 h
    exact ih (isOwed_apply hc (.inl hs)) hrest

/-- A deadline stays as it is as long as no calculation begins. -/
theorem run_of_scheduled {d : Instant} (hs : s.phase = .scheduled d) (h : s.begun calls = []) :
    s.run calls = s := by
  induction calls with
  | nil => rfl
  | cons c calls ih =>
    obtain ⟨hc, hrest⟩ := begun_eq_nil_cons.1 h
    rw [apply_of_scheduled hs hc] at hrest
    rw [run_cons, apply_of_scheduled hs hc, ih hrest]

/-- During a calculation none begins, and requests are noted for afterwards. -/
theorem run_of_calculating {rerun : Bool} (hs : s.phase = .calculating rerun)
    (h : ∀ c ∈ calls, c.action ≠ .finish) : s.begun calls = [] ∧
      (s.run calls).phase = .calculating (rerun || calls.any (·.action = .request)) := by
  induction calls generalizing s rerun with
  | nil => simp [begun, hs]
  | cons c calls ih =>
    obtain ⟨hc, hcalls⟩ := List.forall_mem_cons.1 h
    obtain ⟨hb, hp⟩ := apply_of_calculating hs hc
    obtain ⟨hrest, hlast⟩ := ih hp hcalls
    exact ⟨begun_eq_nil_cons.2 ⟨hb, hrest⟩, by rw [run_cons, hlast, List.any_cons, Bool.or_assoc]⟩

/-- There are no more calculations than requests, but for one that is owed from the start. -/
theorem length_begun_le (s : Schedule) (calls : List Call) :
    (s.run calls).phase.isOwed.toNat + (s.begun calls).length ≤
      s.phase.isOwed.toNat + requestCount calls := by
  induction calls generalizing s with
  | nil => simp [begun, requestCount]
  | cons c calls ih =>
    have hrest := ih (s.apply c)
    have hc := s.owed_apply c
    have hcount : requestCount (c :: calls) =
        requestCount calls + (decide (c.action = .request)).toNat := by
      rw [requestCount, List.countP_cons, requestCount]
      cases decide (c.action = .request) <;> rfl
    have hlen : (s.begun (c :: calls)).length =
        ((s.apply c).begun calls).length + (s.begins c).toNat := by
      rw [begun]
      cases s.begins c <;> rfl
    rw [run_cons, hcount, hlen]
    omega

/-! ## Requests that no calculation has begun for -/

/-- A request in a history since which no calculation has begun. -/
def OpenRequest (s : Schedule) (calls : List Call) (r : Call) : Prop :=
  r.action = .request ∧ ∃ earlier later, calls = earlier ++ r :: later ∧
    (s.run earlier).begun (r :: later) = []

/-- An open request is one of the calls. -/
theorem OpenRequest.mem {r : Call} (h : OpenRequest s calls r) : r ∈ calls := by
  obtain ⟨-, earlier, later, rfl, -⟩ := h
  simp

/-- A request stays open if the next call begins no calculation. -/
theorem OpenRequest.append {r c : Call} (h : OpenRequest s calls r)
    (hc : (s.run calls).begins c = false) : OpenRequest s (calls ++ [c]) r := by
  obtain ⟨hr, earlier, later, rfl, hbegun⟩ := h
  refine ⟨hr, earlier, later ++ [c], by simp, ?_⟩
  have hlast : ((s.run earlier).run (r :: later)).begun [c] = [] := by
    rw [← run_append]
    exact begun_eq_nil_cons.2 ⟨hc, rfl⟩
  rw [← List.cons_append, begun_append, hbegun, hlast, List.append_nil]

/-- A new request is open. -/
theorem openRequest_append_request {c : Call} (hc : c.action = .request) :
    OpenRequest s (calls ++ [c]) c := by
  refine ⟨hc, calls, [], rfl, begun_eq_nil_cons.2 ⟨not_begins_of_action ?_, rfl⟩⟩
  rw [hc]
  decide

/-- A history in which time does not run backwards. -/
def Ordered (calls : List Call) : Prop := (calls.map (·.time)).Pairwise (· ≤ ·)

instance (calls : List Call) : Decidable (Ordered calls) :=
  inferInstanceAs (Decidable (List.Pairwise _ _))

/-- The last call is the latest. -/
theorem Ordered.le_of_mem {c r : Call} (h : Ordered (calls ++ [c])) (hr : r ∈ calls) :
    r.time ≤ c.time := by
  rw [Ordered, List.map_append] at h
  exact (List.pairwise_append.1 h).2.2 _ (List.mem_map_of_mem hr) _ (by simp)

/-- The beginning of an ordered history is ordered. -/
theorem Ordered.of_append {later : List Call} (h : Ordered (calls ++ later)) : Ordered calls := by
  rw [Ordered, List.map_append] at h
  exact (List.pairwise_append.1 h).1

/-- Behind an armed deadline there is an open request that is one interval older, and behind the
note to run again there is an open request. -/
structure Explained (s : Schedule) (calls : List Call) : Prop where
  scheduled : ∀ {d}, (s.run calls).phase = .scheduled d →
    ∃ r, OpenRequest s calls r ∧ r.time + s.interval ≤ d
  rerun : (s.run calls).phase = .calculating true → ∃ r, OpenRequest s calls r

/-- One more call can be explained as well. -/
theorem Explained.append {c : Call} (h : Explained s calls) (ho : Ordered (calls ++ [c])) :
    Explained s (calls ++ [c]) := by
  have hrun : s.run (calls ++ [c]) = (s.run calls).apply c := run_append ..
  rcases (s.run calls).apply_cases c with ⟨_, -, -, -, heq⟩ | ⟨hb, ⟨ha, -, heq⟩ | ⟨ha, -, heq⟩ |
    ⟨-, hp, heq⟩ | ⟨-, -, heq⟩ | ⟨heq, -⟩⟩
  · constructor <;> simp [hrun, heq]
  · refine ⟨fun {d} hd => ⟨c, openRequest_append_request ha, ?_⟩, by simp [hrun, heq]⟩
    have hd : c.time + s.interval = d := by simpa [hrun, heq] using hd
    exact Nat.le_of_eq hd
  · exact ⟨by simp [hrun, heq], fun _ => ⟨c, openRequest_append_request ha⟩⟩
  · -- the request that the calculation was to run again for is the one behind the new deadline
    obtain ⟨r, hr⟩ := h.rerun hp
    refine ⟨fun {d} hd => ⟨r, hr.append hb, ?_⟩, by simp [hrun, heq]⟩
    have hle := ho.le_of_mem hr.mem
    have hd : c.time + s.interval = d := by simpa [hrun, heq] using hd
    exact hd ▸ Nat.add_le_add_right hle _
  · constructor <;> simp [hrun, heq]
  · have hsame : s.run (calls ++ [c]) = s.run calls := hrun.trans heq
    constructor
    · intro d hd
      obtain ⟨r, hr, hle⟩ := h.scheduled (hsame ▸ hd)
      exact ⟨r, hr.append hb, hle⟩
    · intro hd
      obtain ⟨r, hr⟩ := h.rerun (hsame ▸ hd)
      exact ⟨r, hr.append hb⟩

/-- Every ordered history from an idle schedule can be explained. -/
theorem explained (interval : Duration) (h : Ordered calls) : Explained (.idle interval) calls := by
  induction calls using List.reverseRecOn with
  | nil => constructor <;> simp [idle]
  | append_singleton calls c ih => exact (ih h.of_append).append h

/-- While a request is open, a calculation is owed. -/
theorem OpenRequest.isOwed {r : Call} (h : OpenRequest s calls r) :
    (s.run calls).phase.isOwed = true := by
  obtain ⟨hr, earlier, later, rfl, hbegun⟩ := h
  obtain ⟨hb, hrest⟩ := begun_eq_nil_cons.1 hbegun
  rw [run_append, run_cons]
  exact isOwed_run (isOwed_apply hb (.inr hr)) hrest

/-! ## The law -/

/-- Calculations in a history run one at a time and lose no request. -/
structure SingleFlight (s : Schedule) (calls : List Call) : Prop where
  /-- A calculation ends before the next one begins. -/
  exclusive : ∀ {before c between c' after}, calls = before ++ c :: (between ++ c' :: after) →
    (s.run before).begins c = true → (s.run (before ++ c :: between)).begins c' = true →
    ∃ f ∈ between, f.action = .finish
  /-- From a request until a calculation begins, one is owed. -/
  owed : ∀ {before r after}, calls = before ++ after → OpenRequest s before r →
    (s.run before).phase.isOwed = true
  /-- A calculation that begins has been asked for one interval earlier, after the one before it
  has begun. -/
  answered : ∀ {before c after}, calls = before ++ c :: after → (s.run before).begins c = true →
    ∃ r, OpenRequest s before r ∧ r.time + s.interval ≤ c.time
  fewer : (s.begun calls).length ≤ requestCount calls
  /-- The requests that are made during a calculation arm one deadline when it ends, and leave
  one calculation to begin for all of them. -/
  merged : ∀ {before c during f after}, calls = before ++ c :: (during ++ f :: after) →
    (s.run before).begins c = true → (∀ d ∈ during, d.action ≠ .finish) → f.action = .finish →
    (s.run (before ++ c :: (during ++ [f]))).phase =
        (if during.any (·.action = .request) then .scheduled (f.time + s.interval) else .idle) ∧
      ((s.run (before ++ c :: (during ++ [f]))).begun after).length ≤
        requestCount after + (during.any (·.action = .request)).toNat
  /-- A deadline that is armed stays where it is until a calculation begins, whatever is asked. -/
  steady : ∀ {before during after d}, calls = before ++ (during ++ after) →
    (s.run before).phase = .scheduled d → (s.run before).begun during = [] →
    (s.run (before ++ during)).phase = .scheduled d

/-- A calculation begins when its deadline has come, and no other way. -/
theorem of_begins {c : Call} (h : s.begins c = true) : c.action ≠ .finish ∧
    (∃ d, s.phase = .scheduled d ∧ d ≤ c.time) ∧ (s.apply c).phase = .calculating false := by
  rcases s.apply_cases c with ⟨d, hp, hd, -, heq⟩ | ⟨hb, -⟩
  · refine ⟨fun ha => ?_, ⟨d, hp, hd⟩, by rw [heq]⟩
    rw [not_begins_of_action (by rw [ha]; decide)] at h
    cases h
  · rw [hb] at h
    cases h

/-- Between the beginnings of two calculations one is finished. -/
theorem finish_between {before between : List Call} {c c' : Call}
    (hc : (s.run before).begins c = true)
    (hc' : (s.run (before ++ c :: between)).begins c' = true) :
    ∃ f ∈ between, f.action = .finish := by
  by_contra! hno
  obtain ⟨-, hp⟩ := run_of_calculating (of_begins hc).2.2 hno
  obtain ⟨-, ⟨d, hd, -⟩, -⟩ := of_begins hc'
  rw [run_append, run_cons, hp] at hd
  cases hd

/-- The requests during a calculation lead to one more, an interval after it has finished. -/
theorem phase_of_merged {before during : List Call} {c f : Call}
    (hc : (s.run before).begins c = true) (hno : ∀ d ∈ during, d.action ≠ .finish)
    (hf : f.action = .finish) : (s.run (before ++ c :: (during ++ [f]))).phase =
      if during.any (·.action = .request) then .scheduled (f.time + s.interval) else .idle := by
  obtain ⟨-, hp⟩ := run_of_calculating (of_begins hc).2.2 hno
  have hlast : (s.run (before ++ c :: (during ++ [f]))) =
      ((((s.run before).apply c).run during).finish f.time) := by
    rw [run_append, run_cons, run_append, run_cons, run_nil, apply, hf]
  rw [hlast, finish, hp, Bool.false_or]
  cases during.any (·.action = .request) <;> simp

/-- In an ordered history calculations run one at a time and lose no request. -/
theorem singleFlight_of_ordered (interval : Duration) {calls : List Call} (h : Ordered calls) :
    SingleFlight (.idle interval) calls where
  exclusive _ hc hc' := finish_between hc hc'
  owed _ hr := hr.isOwed
  answered := by
    rintro before c after rfl hc
    obtain ⟨-, ⟨d, hd, hle⟩, -⟩ := of_begins hc
    obtain ⟨r, hr, hrd⟩ := (explained interval h.of_append).scheduled hd
    exact ⟨r, hr, Nat.le_trans hrd hle⟩
  fewer := by
    have hle := length_begun_le (.idle interval) calls
    -- At first no calculation is owed, so every one that begins uses up a request.
    have hidle : (idle interval).phase.isOwed.toNat = 0 := rfl
    omega
  merged := by
    intro before c during f after _ hc hno hf
    have hp := phase_of_merged hc hno hf
    have howed : (run (.idle interval) (before ++ c :: (during ++ [f]))).phase.isOwed =
        during.any (·.action = .request) := by
      rw [hp]
      cases during.any (·.action = .request) <;> rfl
    have hle := length_begun_le (run (.idle interval) (before ++ c :: (during ++ [f]))) after
    rw [howed] at hle
    exact ⟨hp, by omega⟩
  steady _ hd hbegun := by rw [run_append, run_of_scheduled hd hbegun, hd]

end

/-- Two requests are merged before a calculation and two during it, when a third party tries to
begin one as well. -/
def crowded : List Call :=
  [⟨0, .request, 0⟩, ⟨1, .request, 3⟩, ⟨0, .tryBegin, 15⟩, ⟨1, .request, 16⟩, ⟨2, .request, 17⟩,
    ⟨2, .tryBegin, 18⟩, ⟨0, .finish, 20⟩, ⟨1, .tryBegin, 35⟩, ⟨1, .finish, 36⟩]

/-- Four requests lead to two calculations. -/
theorem singleFlight_crowded : Ordered crowded ∧ SingleFlight (.idle 15) crowded ∧
    ((idle 15).begun crowded).map (·.time) = [15, 35] ∧ requestCount crowded = 4 :=
  have h : Ordered crowded := by decide
  ⟨h, singleFlight_of_ordered 15 h, by decide, by decide⟩

end Schedule

end AdaptiveRouting
