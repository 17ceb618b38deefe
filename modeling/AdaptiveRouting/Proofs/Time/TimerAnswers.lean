import AdaptiveRouting.Proofs.Time.LiveTimers
import Mathlib.Data.Set.Card

/-!
# What a queue answers

A timer queue is used by calls (`TimerCall`), each of which it answers (`TimerAnswer`); the calls
with their answers are a log. The plain account of the live timers can be asked the same, and the
two keep the same log: each call is answered alike and leaves a queue whose live timers are those of
the account (`TimerQueue.Represents`, `TimerQueue.Represents.perform`).

What the answers ought to be can be read off the log so far, without any state. A timer is live when
it has been scheduled and since then neither cancelled nor taken out (`TimerLog.live`), and each
answer is determined by the set of the live timers (`TimerLog.Justifies`). The plain account keeps
exactly this set (`LiveTimers.Accounts`), and so every answer of a queue is justified by the log
before it, and a timer that is gone is not heard of again (`TimerQueue.answers_justified`).
-/

namespace AdaptiveRouting

variable {τ : Type}

/-! ## Calls and answers -/

/-- What can be asked of timers. -/
inductive TimerCall (τ : Type) where
  | schedule (deadline : Instant) (payload : τ)
  | cancel (id : TimerId)
  | cancelAll
  | isPending (id : TimerId)
  | size
  | isEmpty
  | nextDeadline
  /-- To take out the first timer that is due. -/
  | popDue (now : Instant)

/-- What is answered. -/
inductive TimerAnswer (τ : Type) where
  | done
  /-- The number of the timer that has been scheduled. -/
  | number (id : TimerId)
  /-- The payload of the timer that has been cancelled, if it was live. -/
  | payload (found : Option τ)
  | verdict (holds : Bool)
  | count (n : Nat)
  | deadline (earliest : Option Instant)
  /-- The timer that has been taken out, if one was due. -/
  | fired (timer : Option (TimerId × τ))

/-- Calls with their answers, the first one first. -/
abbrev TimerLog (τ : Type) : Type := List (TimerCall τ × TimerAnswer τ)

/-- The log of some calls, answered in a state and then in the states that they leave. -/
def TimerCall.log {σ : Type} (perform : σ → TimerCall τ → TimerAnswer τ × σ) :
    σ → List (TimerCall τ) → TimerLog τ
  | _, [] => []
  | s, c :: calls => (c, (perform s c).1) :: log perform (perform s c).2 calls

/-- Answers a call. Looking for the first live timer drops the cancelled ones in front of it. -/
def TimerQueue.perform (q : TimerQueue τ) : TimerCall τ → TimerAnswer τ × TimerQueue τ
  | .schedule deadline payload =>
    (.number (q.schedule deadline payload).1, (q.schedule deadline payload).2)
  | .cancel id => (.payload (q.cancel id).1, (q.cancel id).2)
  | .cancelAll => (.done, q.cancelAll)
  | .isPending id => (.verdict (q.isPending id), q)
  | .size => (.count q.size, q)
  | .isEmpty => (.verdict q.isEmpty, q)
  | .nextDeadline => (.deadline q.nextDeadline?, q.settle)
  | .popDue now =>
    match q.popDue? now with
    | none => (.fired none, q.settle)
    | some (id, payload, q') => (.fired (some (id, payload)), q')

/-- Answers a call. -/
def LiveTimers.perform (l : LiveTimers τ) : TimerCall τ → TimerAnswer τ × LiveTimers τ
  | .schedule deadline payload =>
    (.number (l.schedule deadline payload).1, (l.schedule deadline payload).2)
  | .cancel id => (.payload (l.cancel id).1, (l.cancel id).2)
  | .cancelAll => (.done, l.cancelAll)
  | .isPending id => (.verdict (l.isPending id), l)
  | .size => (.count l.size, l)
  | .isEmpty => (.verdict l.isEmpty, l)
  | .nextDeadline => (.deadline l.nextDeadline?, l)
  | .popDue now =>
    match l.popDue? now with
    | none => (.fired none, l)
    | some (id, payload, l') => (.fired (some (id, payload)), l')

/-! ## What a log says -/

namespace TimerLog

/-- Whether a timer of that number is live no longer after a call and its answer. -/
def Removes (entry : TimerCall τ × TimerAnswer τ) (id : TimerId) : Prop :=
  entry.1 = .cancel id ∨ entry.1 = .cancelAll ∨ ∃ payload, entry.2 = .fired (some (id, payload))

/-- Whether a call is answered with the payload of the timer of that number. -/
def Returns (entry : TimerCall τ × TimerAnswer τ) (id : TimerId) : Prop :=
  (entry.1 = .cancel id ∧ ∃ payload, entry.2 = .payload (some payload)) ∨
    ∃ payload, entry.2 = .fired (some (id, payload))

/-- Whether a number has been given to a timer. -/
def Gives (log : TimerLog τ) (id : TimerId) : Prop :=
  ∃ deadline payload, (.schedule deadline payload, .number id) ∈ log

/-- The timers that have been scheduled and since then neither cancelled nor taken out. -/
def live (log : TimerLog τ) : Set (LiveTimer τ) :=
  {t | ∃ earlier later,
    log = earlier ++ (.schedule t.deadline t.payload, .number t.id) :: later ∧
      ∀ entry ∈ later, ¬ Removes entry t.id}

/-- The number of timers that have been scheduled. -/
def scheduled (log : TimerLog τ) : Nat :=
  log.countP fun entry => match entry.1 with
    | .schedule .. => true
    | _ => false

/-- The answer to a call that is right by the live timers. -/
def Justifies (log : TimerLog τ) : TimerCall τ → TimerAnswer τ → Prop
  | .schedule _ _, .number id => id = log.scheduled ∧ ¬ log.Gives id
  | .cancel id, .payload found =>
    ∀ payload, found = some payload ↔ ∃ deadline, ⟨deadline, id, payload⟩ ∈ log.live
  | .cancelAll, .done => True
  | .isPending id, .verdict holds => holds = true ↔ ∃ t ∈ log.live, t.id = id
  | .size, .count n => log.live.encard = n
  | .isEmpty, .verdict holds => holds = true ↔ log.live = ∅
  | .nextDeadline, .deadline none => log.live = ∅
  | .nextDeadline, .deadline (some earliest) =>
    IsLeast (LiveTimer.deadline '' log.live) earliest
  | .popDue now, .fired none => ∀ t ∈ log.live, now < t.deadline
  | .popDue now, .fired (some (id, payload)) =>
    ∃ deadline ≤ now, ⟨deadline, id, payload⟩ ∈ log.live ∧ ∀ t ∈ log.live,
      t = ⟨deadline, id, payload⟩ ∨
        Appointment.before (deadline, id) (t.deadline, t.id) = true
  | _, _ => False

/-- Every answer is right by the log before it. -/
def Justified (log : TimerLog τ) : Prop :=
  ∀ (earlier : TimerLog τ) call answer later, log = earlier ++ (call, answer) :: later →
    earlier.Justifies call answer

/-- A timer that has been cancelled or taken out is not returned again. -/
def NothingReturns (log : TimerLog τ) : Prop :=
  ∀ (earlier : TimerLog τ) entry later id, log = earlier ++ entry :: later → earlier.Gives id →
    Removes entry id → ∀ entry' ∈ later, ¬ Returns entry' id

end TimerLog

/-! ## The queue keeps the log of the plain account -/

namespace TimerQueue

variable {q q' : TimerQueue τ} {l : LiveTimers τ}

/-- Without a timer to take out, the answer is that none has fired. -/
theorem perform_popDue_of_none {now : Instant} (h : q.popDue? now = none) :
    q.perform (.popDue now) = (.fired none, q.settle) := by
  rw [perform, h]

/-- The timer that is taken out is the answer. -/
theorem perform_popDue_of_some {now : Instant} {id : TimerId} {payload : τ}
    (h : q.popDue? now = some (id, payload, q')) :
    q.perform (.popDue now) = (.fired (some (id, payload)), q') := by
  rw [perform, h]

/-- The payload of a number is that of the live timer of that number. -/
theorem WellFormed.getElem?_eq (hq : q.WellFormed) (id : TimerId) :
    q.live[id]? = (q.timers.find? (·.id = id)).map (·.payload) := by
  cases hfound : q.timers.find? (·.id = id) with
  | none =>
    cases hp : q.live[id]? with
    | none => rfl
    | some payload =>
      obtain ⟨deadline, ht⟩ := hq.exists_timer hp
      simpa using List.find?_eq_none.1 hfound _ ht
  | some t =>
    obtain rfl : t.id = id := by simpa using List.find?_some hfound
    exact (mem_timers.1 (List.mem_of_find?_eq_some hfound)).2

/-- A number is live if a live timer has it. -/
theorem WellFormed.contains_eq (hq : q.WellFormed) (id : TimerId) :
    q.live.contains id = q.timers.any (·.id = id) := by
  rw [Std.ExtTreeMap.contains_eq_isSome_getElem?, hq.getElem?_eq, Option.isSome_map,
    List.isSome_find?]

/-- A queue is empty if it has no live timers. -/
theorem WellFormed.isEmpty_eq (hq : q.WellFormed) : q.isEmpty = q.timers.isEmpty := by
  have hsize : q.live.size = q.timers.length := hq.size_eq
  rw [TimerQueue.isEmpty, Std.ExtTreeMap.isEmpty_eq_size_beq_zero, hsize]
  cases q.timers <;> rfl

/-- A queue whose live timers are those of an account, and which gives out the same numbers. -/
structure Represents (q : TimerQueue τ) (l : LiveTimers τ) : Prop where
  wellFormed : q.WellFormed
  timers : q.timers = l.timers
  nextId : q.nextId = l.nextId

/-- The empty queue stands for no live timers. -/
theorem represents_empty : (empty : TimerQueue τ).Represents .empty :=
  ⟨wellFormed_empty, rfl, rfl⟩

/-- Settling does not change what a queue stands for. -/
theorem Represents.settle (h : q.Represents l) : q.settle.Represents l :=
  ⟨h.wellFormed.settle, q.timers_settle.trans h.timers, h.nextId⟩

/-- **One call** is answered as the account answers it, and leaves what the account leaves. -/
theorem Represents.perform (h : q.Represents l) (c : TimerCall τ) :
    (q.perform c).1 = (l.perform c).1 ∧ (q.perform c).2.Represents (l.perform c).2 := by
  obtain ⟨hq, htimers, hnext⟩ := id h
  cases c with
  | schedule deadline payload =>
    refine ⟨congrArg TimerAnswer.number hnext, hq.schedule deadline payload, ?_,
      congrArg Nat.succ hnext⟩
    simp only [TimerQueue.perform, LiveTimers.perform, LiveTimers.schedule, hq.timers_schedule,
      htimers, hnext]
  | cancel id =>
    refine ⟨congrArg TimerAnswer.payload ?_, hq.cancel id, ?_, hnext⟩
    · simp only [TimerQueue.cancel, LiveTimers.cancel, hq.getElem?_eq, htimers]
    · simp only [TimerQueue.perform, LiveTimers.perform, LiveTimers.cancel, timers_cancel, htimers]
  | cancelAll => exact ⟨rfl, .cancelAll q, rfl, hnext⟩
  | isPending id =>
    refine ⟨congrArg TimerAnswer.verdict ?_, h⟩
    rw [TimerQueue.isPending, hq.contains_eq, htimers, LiveTimers.isPending]
  | size =>
    refine ⟨congrArg TimerAnswer.count ?_, h⟩
    rw [hq.size_eq, htimers, LiveTimers.size]
  | isEmpty =>
    refine ⟨congrArg TimerAnswer.verdict ?_, h⟩
    rw [hq.isEmpty_eq, htimers, LiveTimers.isEmpty]
  | nextDeadline =>
    refine ⟨congrArg TimerAnswer.deadline ?_, h.settle⟩
    rw [q.nextDeadline?_eq, htimers, LiveTimers.nextDeadline?]
  | popDue now =>
    rcases hq.popDue?_eq now with ⟨hnil, hpop⟩ | ⟨t, q', hfirst, hq', hnext', -, hpop⟩
    · rw [htimers] at hnil
      rw [perform_popDue_of_none hpop]
      simp only [LiveTimers.perform, LiveTimers.popDue?, hnil]
      exact ⟨trivial, h.settle⟩
    · rw [htimers] at hfirst
      by_cases hdue : t.deadline ≤ now
      · rw [if_pos hdue] at hpop
        rw [perform_popDue_of_some hpop]
        simp only [LiveTimers.perform, LiveTimers.popDue?, hfirst, if_pos hdue]
        exact ⟨trivial, hq', rfl, hnext'.trans hnext⟩
      · rw [if_neg hdue] at hpop
        rw [perform_popDue_of_none hpop]
        simp only [LiveTimers.perform, LiveTimers.popDue?, hfirst, if_neg hdue]
        exact ⟨trivial, h.settle⟩

/-- Both give the same answers to all calls. -/
theorem Represents.log_eq (h : q.Represents l) (calls : List (TimerCall τ)) :
    TimerCall.log TimerQueue.perform q calls = TimerCall.log LiveTimers.perform l calls := by
  induction calls generalizing q l with
  | nil => rfl
  | cons c calls ih =>
    obtain ⟨hanswer, hleft⟩ := h.perform c
    rw [TimerCall.log, TimerCall.log, hanswer, ih hleft]

end TimerQueue

/-! ## Logs -/

namespace TimerLog

variable {log : TimerLog τ} {entry : TimerCall τ × TimerAnswer τ}

/-- One more call can make a timer live or end it. -/
theorem mem_live_append_singleton {t : LiveTimer τ} :
    t ∈ live (log ++ [entry]) ↔
      entry = (.schedule t.deadline t.payload, .number t.id) ∨
        t ∈ live log ∧ ¬ Removes entry t.id := by
  constructor
  · rintro ⟨earlier, later, hlog, hkept⟩
    rcases List.eq_nil_or_concat later with rfl | ⟨later, last, rfl⟩
    · exact .inl (List.append_singleton_inj.1 hlog).2
    · rw [List.concat_eq_append, ← List.cons_append, ← List.append_assoc] at hlog
      obtain ⟨rfl, rfl⟩ := List.append_singleton_inj.1 hlog
      rw [List.concat_eq_append] at hkept
      exact .inr ⟨⟨earlier, later, rfl, fun e he => hkept e (List.mem_append_left _ he)⟩,
        hkept entry (by simp)⟩
  · rintro (rfl | ⟨⟨earlier, later, rfl, hkept⟩, hentry⟩)
    · exact ⟨log, [], rfl, by simp⟩
    · refine ⟨earlier, later ++ [entry], by simp, fun e he => ?_⟩
      rcases List.mem_append.1 he with he | he
      · exact hkept e he
      · rwa [List.mem_singleton.1 he]

/-- A timer that is returned was live. -/
theorem Justifies.live_of_returns (h : log.Justifies entry.1 entry.2) {id : TimerId}
    (hreturns : Returns entry id) : ∃ t ∈ log.live, t.id = id := by
  obtain ⟨call, answer⟩ := entry
  rcases hreturns with ⟨rfl, payload, rfl⟩ | ⟨payload, rfl⟩
  · obtain ⟨deadline, hlive⟩ := (h payload).1 rfl
    exact ⟨_, hlive, rfl⟩
  · cases call with
    | popDue now =>
      obtain ⟨deadline, -, hlive, -⟩ := h
      exact ⟨_, hlive, rfl⟩
    | _ => exact h.elim

/-- A timer has a number of its own, so it is live in no log in which it has been removed. -/
theorem Justified.nothingReturns (h : log.Justified) : log.NothingReturns := by
  rintro earlier entry later id rfl hgiven hremoves ⟨call, answer⟩ hmem hreturns
  obtain ⟨between, rest, rfl⟩ := List.append_of_mem hmem
  have hjustified : Justifies (earlier ++ entry :: between) call answer :=
    h _ _ _ rest (by simp)
  obtain ⟨t, ⟨before, after, hlog, hkept⟩, rfl⟩ := hjustified.live_of_returns hreturns
  have hscheduled : Justifies before (.schedule t.deadline t.payload) (.number t.id) :=
    h _ _ _ (after ++ (call, answer) :: rest) (by
      rw [← List.cons_append, ← List.append_assoc, hlog, List.append_assoc, List.cons_append])
  have hnew : ¬ Gives before t.id := hscheduled.2
  rcases List.append_eq_append_iff.1 hlog with ⟨more, rfl, -⟩ | ⟨more, rfl, hmore⟩
  · obtain ⟨deadline, payload, hgives⟩ := hgiven
    exact hnew ⟨deadline, payload, List.mem_append_left _ hgives⟩
  · cases more with
    | nil =>
      rw [List.append_nil] at hgiven
      exact hnew hgiven
    | cons first more =>
      obtain ⟨-, rfl⟩ := List.cons.inj hmore
      exact hkept entry (by simp) hremoves

end TimerLog

/-! ## The queue answers by the log -/

namespace TimerQueue

variable {q q' : TimerQueue τ} {log : TimerLog τ} {entry : TimerCall τ × TimerAnswer τ}

/-- A queue whose live timers are those of a log, and which has given out the numbers in it. -/
structure Accounts (q : TimerQueue τ) (log : TimerLog τ) : Prop where
  wellFormed : q.WellFormed
  mem_timers_iff {t : LiveTimer τ} : t ∈ q.timers ↔ t ∈ log.live
  /-- The numbers in the log have been given out. -/
  given {id : TimerId} : log.Gives id → id < q.nextId
  nextId : q.nextId = log.scheduled

/-- The empty queue belongs to an empty log. -/
theorem accounts_empty : (empty : TimerQueue τ).Accounts [] where
  wellFormed := wellFormed_empty
  mem_timers_iff := by
    refine ⟨fun h => absurd h List.not_mem_nil, ?_⟩
    rintro ⟨earlier, later, hnil, -⟩
    simp at hnil
  given h := by
    obtain ⟨_, _, hmem⟩ := h
    cases hmem
  nextId := rfl

/-- The timers of a queue are different ones. -/
theorem WellFormed.nodup_timers (hq : q.WellFormed) : q.timers.Nodup := hq.nodup_ids.of_map _

/-- The first timer is the earliest. -/
theorem WellFormed.isLeast_deadline (hq : q.WellFormed) {t : LiveTimer τ}
    {rest : List (LiveTimer τ)} (h : q.timers = t :: rest) {u : LiveTimer τ} (hu : u ∈ q.timers) :
    u = t ∨ Appointment.before (t.deadline, t.id) (u.deadline, u.id) = true := by
  have hfirst := hq.pairwise_timers
  rw [h] at hfirst hu
  exact (List.mem_cons.1 hu).imp_right ((List.pairwise_cons.1 hfirst).1 u)

/-- Every call is answered as the log asks. -/
theorem Accounts.justifies (h : q.Accounts log) (c : TimerCall τ) :
    log.Justifies c (q.perform c).1 := by
  have hq := h.wellFormed
  cases c with
  | schedule deadline payload => exact ⟨h.nextId, fun hgives => Nat.lt_irrefl _ (h.given hgives)⟩
  | cancel id =>
    intro payload
    constructor
    · intro hp
      obtain ⟨deadline, ht⟩ := hq.exists_timer hp
      exact ⟨deadline, h.mem_timers_iff.1 ht⟩
    · rintro ⟨deadline, ht⟩
      exact (mem_timers.1 (h.mem_timers_iff.2 ht)).2
  | cancelAll => trivial
  | isPending id =>
    show q.live.contains id = true ↔ _
    simp only [hq.contains_eq, List.any_eq_true, decide_eq_true_eq, h.mem_timers_iff]
  | size =>
    classical
    -- The live timers of the log are counted by those of the queue.
    have hset : log.live = (q.timers.toFinset : Set (LiveTimer τ)) := by
      ext t
      simp [h.mem_timers_iff]
    show log.live.encard = (q.size : ℕ∞)
    rw [hset, Set.encard_coe_eq_coe_finsetCard, List.toFinset_card_of_nodup hq.nodup_timers,
      hq.size_eq]
  | isEmpty =>
    show q.isEmpty = true ↔ _
    rw [hq.isEmpty_eq, List.isEmpty_iff, List.eq_nil_iff_forall_not_mem,
      Set.eq_empty_iff_forall_notMem]
    simp only [h.mem_timers_iff]
  | nextDeadline =>
    simp only [TimerQueue.perform, q.nextDeadline?_eq]
    cases htimers : q.timers with
    | nil =>
      refine Set.eq_empty_iff_forall_notMem.2 fun t ht => ?_
      rw [← h.mem_timers_iff, htimers] at ht
      cases ht
    | cons t rest =>
      refine ⟨⟨t, h.mem_timers_iff.1 (by simp [htimers]), rfl⟩, ?_⟩
      rintro _ ⟨u, hu, rfl⟩
      rcases hq.isLeast_deadline htimers (h.mem_timers_iff.2 hu) with rfl | hbefore
      · exact le_rfl
      · rcases Appointment.before_iff.1 hbefore with hlt | ⟨heq, -⟩
        · exact Nat.le_of_lt hlt
        · exact Nat.le_of_eq heq
  | popDue now =>
    cases hpop : q.popDue? now with
    | none =>
      rw [perform_popDue_of_none hpop]
      intro t ht
      have hnone := hq.popDue?_eq_none_iff.1 hpop
      by_contra hdue
      have := mem_due.2 ⟨h.mem_timers_iff.2 ht, Nat.not_lt.1 hdue⟩
      rw [hnone] at this
      cases this
    | some popped =>
      obtain ⟨id, payload, q'⟩ := popped
      obtain ⟨deadline, htimers, hdue, -⟩ := hq.of_popDue? hpop
      rw [perform_popDue_of_some hpop]
      have hfirst : (⟨deadline, id, payload⟩ : LiveTimer τ) ∈ q.due now := by simp [hdue]
      obtain ⟨hmem, hle⟩ := mem_due.1 hfirst
      exact ⟨deadline, hle, h.mem_timers_iff.1 hmem, fun t ht =>
        hq.isLeast_deadline htimers (h.mem_timers_iff.2 ht)⟩

/-- A queue that has lost the timers that a call removes, and no others. -/
theorem Accounts.extend (h : q.Accounts log) (hq' : q'.WellFormed) (hnext : q'.nextId = q.nextId)
    (hentry : ∀ deadline payload, entry.1 ≠ .schedule deadline payload)
    (hmem : ∀ t, t ∈ q'.timers ↔ t ∈ q.timers ∧ ¬ TimerLog.Removes entry t.id) :
    q'.Accounts (log ++ [entry]) where
  wellFormed := hq'
  mem_timers_iff {t} := by
    have hnew : entry ≠ (.schedule t.deadline t.payload, .number t.id) := fun heq =>
      hentry t.deadline t.payload (by rw [heq])
    rw [TimerLog.mem_live_append_singleton, hmem, h.mem_timers_iff, or_iff_right hnew]
  given {id} hgives := by
    obtain ⟨deadline, payload, hin⟩ := hgives
    rw [hnext]
    rcases List.mem_append.1 hin with hin | hin
    · exact h.given ⟨deadline, payload, hin⟩
    · rw [← List.mem_singleton.1 hin] at hentry
      exact absurd rfl (hentry deadline payload)
  nextId := by
    rw [hnext, h.nextId, TimerLog.scheduled, TimerLog.scheduled, List.countP_append,
      List.countP_singleton]
    obtain ⟨call, answer⟩ := entry
    cases call with
    | schedule deadline payload => exact absurd rfl (hentry deadline payload)
    | _ => rfl

/-- Scheduling is entered into the log with the number that was given out. -/
theorem Accounts.schedule (h : q.Accounts log) (deadline : Instant) (payload : τ) :
    (q.schedule deadline payload).2.Accounts
      (log ++ [(.schedule deadline payload, .number q.nextId)]) where
  wellFormed := h.wellFormed.schedule deadline payload
  mem_timers_iff {t} := by
    rw [h.wellFormed.mem_timers_schedule, TimerLog.mem_live_append_singleton, h.mem_timers_iff]
    obtain ⟨deadline', id, payload'⟩ := t
    simp only [LiveTimer.mk.injEq, Prod.mk.injEq, TimerCall.schedule.injEq,
      TimerAnswer.number.injEq, TimerLog.Removes]
    grind
  given {id} hgives := by
    obtain ⟨deadline', payload', hin⟩ := hgives
    rcases List.mem_append.1 hin with hin | hin
    · exact Nat.lt_succ_of_lt (h.given ⟨deadline', payload', hin⟩)
    · simp only [List.mem_singleton, Prod.mk.injEq, TimerAnswer.number.injEq] at hin
      exact hin.2 ▸ Nat.lt_succ_self _
  nextId := by
    rw [TimerLog.scheduled, List.countP_append, List.countP_singleton]
    exact congrArg Nat.succ h.nextId

/-- **One call** leaves a queue that accounts for it. -/
theorem Accounts.perform (h : q.Accounts log) (c : TimerCall τ) :
    (q.perform c).2.Accounts (log ++ [(c, (q.perform c).1)]) := by
  have hq := h.wellFormed
  -- a call that removes nothing leaves the live timers as they are
  have hsame : ∀ {q' : TimerQueue τ} {entry : TimerCall τ × TimerAnswer τ}, q'.WellFormed →
      q'.nextId = q.nextId → q'.timers = q.timers →
      (∀ deadline payload, entry.1 ≠ .schedule deadline payload) →
      (∀ id, ¬ TimerLog.Removes entry id) → q'.Accounts (log ++ [entry]) :=
    fun hq' hnext htimers hentry hremoves =>
      h.extend hq' hnext hentry fun t => by simp [htimers, hremoves]
  cases c with
  | schedule deadline payload => exact h.schedule deadline payload
  | cancel id =>
    refine h.extend (hq.cancel id) rfl (by simp) fun t => ?_
    rw [TimerQueue.perform, timers_cancel, List.mem_filter]
    simp [TimerLog.Removes, eq_comm (a := id)]
  | cancelAll =>
    refine h.extend (.cancelAll q) rfl (by simp) fun t => ?_
    simp [TimerLog.Removes, TimerQueue.perform, TimerQueue.cancelAll, timers]
  | isPending id | size | isEmpty =>
    exact hsame hq rfl rfl (by simp) (by simp [TimerLog.Removes, TimerQueue.perform])
  | nextDeadline =>
    exact hsame hq.settle rfl q.timers_settle (by simp)
      (by simp [TimerLog.Removes, TimerQueue.perform])
  | popDue now =>
    cases hpop : q.popDue? now with
    | none =>
      rw [perform_popDue_of_none hpop]
      exact hsame hq.settle rfl q.timers_settle (by simp) (by simp [TimerLog.Removes])
    | some popped =>
      obtain ⟨id, payload, q'⟩ := popped
      obtain ⟨deadline, htimers, -, hq', hnext, -⟩ := hq.of_popDue? hpop
      rw [perform_popDue_of_some hpop]
      refine h.extend hq' hnext (by simp) fun t => ?_
      have hids := hq.nodup_ids
      rw [htimers, List.map_cons, List.nodup_cons] at hids
      have hother : t ∈ q'.timers → t.id ≠ id := by
        rintro ht rfl
        exact hids.1 (List.mem_map.2 ⟨t, ht, rfl⟩)
      have hremoves : TimerLog.Removes (.popDue now, .fired (some (id, payload))) t.id ↔
          t.id = id := by
        simp [TimerLog.Removes, eq_comm]
      rw [htimers, hremoves, List.mem_cons]
      constructor
      · exact fun ht => ⟨.inr ht, hother ht⟩
      · rintro ⟨rfl | ht, hne⟩
        · exact absurd rfl hne
        · exact ht

/-- All further answers are right by the log. -/
theorem Accounts.justified_log (h : q.Accounts log) (hlog : log.Justified)
    (calls : List (TimerCall τ)) :
    TimerLog.Justified (log ++ TimerCall.log TimerQueue.perform q calls) := by
  induction calls generalizing q log with
  | nil => rwa [TimerCall.log, List.append_nil]
  | cons c calls ih =>
    rw [TimerCall.log, List.append_cons]
    refine ih (h.perform c) ?_
    intro earlier call answer later hsplit
    rcases List.eq_nil_or_concat later with rfl | ⟨later, last, rfl⟩
    · obtain ⟨rfl, heq⟩ := List.append_singleton_inj.1 hsplit
      cases heq
      exact h.justifies c
    · rw [List.concat_eq_append, ← List.cons_append, ← List.append_assoc] at hsplit
      exact hlog earlier call answer later (List.append_singleton_inj.1 hsplit).1

/-- **A timer queue answers as the plain account of its live timers does**, whatever it is asked.
Every answer is right by the calls and answers before it: numbers are given out one after the other
and none twice, the first timer is taken out exactly if it is due, and what is said about live
timers is true of those that have been scheduled and since then neither cancelled nor taken out.
A timer that is gone is not returned again. -/
theorem answers_justified (calls : List (TimerCall τ)) :
    TimerCall.log TimerQueue.perform empty calls =
        TimerCall.log LiveTimers.perform .empty calls ∧
      TimerLog.Justified (TimerCall.log TimerQueue.perform empty calls) ∧
      TimerLog.NothingReturns (TimerCall.log TimerQueue.perform empty calls) := by
  have hjustified : TimerLog.Justified (TimerCall.log TimerQueue.perform empty calls) :=
    accounts_empty.justified_log (fun earlier _ _ _ hnil => by simp at hnil) calls
  exact ⟨represents_empty.log_eq calls, hjustified, hjustified.nothingReturns⟩

end TimerQueue

end AdaptiveRouting
