import AdaptiveRouting.Pricing.LoadAware
import AdaptiveRouting.Proofs.Statistics
import AdaptiveRouting.Proofs.Windows

/-!
# Damped prices

A load-aware price never leaves the range from the configured cost to the cap, and it seldom moves:
only by a twentieth or more, and only five seconds or more after it was first quoted (`Damped`).

Prices are quoted on request (`PriceRequest`, `LoadAware.quotes`), and a request about one neighbor
neither reads nor writes what is remembered of another one, so the quotes about a neighbor are those
of the requests about it alone (`LoadAware.quotes_filter`). Of these the load-aware strategy
remembers exactly what damping needs (`Accounts`): the latest ten round-trip times, and the price in
force with the time at which it was first quoted (`InForce`). The window moves with every request
and the price in force only when it is replaced. A price that is replaced by an equal one would be
taken for younger than it is; that this does not happen is where the prices have to be positive
(`LoadAware.not_keeps_iff`).
-/

namespace AdaptiveRouting

open Quantity (number)

/-! ## Requests and quotes -/

/-- A request for the price of a link that has a round-trip time. -/
structure PriceRequest (α : Type) where
  time : Instant
  neighbor : Name
  /-- What the link costs by its round-trip time alone. -/
  cost : α
  metrics : LinkMetrics α
  rtt : Duration
  rtt_eq : metrics.rtt = some rtt

/-- A request with the price that was the answer. -/
structure Quote (α : Type) where
  request : PriceRequest α
  price : α

section
variable {α : Type} [Scalar α]

/-- The round-trip time in milliseconds. -/
def PriceRequest.millis (r : PriceRequest α) : α := Duration.wholeMillis r.rtt

/-- The round-trip time that came with the request. -/
def Quote.millis (q : Quote α) : α := q.request.millis

namespace LoadAware

def answer (s : LoadAware α) (r : PriceRequest α) : α × LoadAware α :=
  s.price r.time r.neighbor r.cost r.metrics

/-- The quotes for some requests, one after the other. -/
def quotes : LoadAware α → List (PriceRequest α) → List (Quote α)
  | _, [] => []
  | s, r :: requests => ⟨r, (s.answer r).1⟩ :: quotes (s.answer r).2 requests

/-- What is remembered after some requests. -/
def after (s : LoadAware α) (requests : List (PriceRequest α)) : LoadAware α :=
  requests.foldl (fun s r => (s.answer r).2) s

variable {s s' : LoadAware α} {n : Name} {r : PriceRequest α}

/-- Requests are answered one after the other. -/
theorem quotes_append (s : LoadAware α) (requests requests' : List (PriceRequest α)) :
    s.quotes (requests ++ requests') =
      s.quotes requests ++ (s.after requests).quotes requests' := by
  induction requests generalizing s with
  | nil => rfl
  | cons r requests ih => exact congrArg (⟨r, (s.answer r).1⟩ :: ·) (ih (s.answer r).2)

/-- The quotes before some quote come of the requests before it. -/
theorem quotes_split {requests : List (PriceRequest α)} {before later : List (Quote α)}
    {q : Quote α} (h : s.quotes requests = before ++ q :: later) :
    ∃ earlier rest, requests = earlier ++ q.request :: rest ∧ before = s.quotes earlier ∧
      q.price = ((s.after earlier).answer q.request).1 := by
  induction before generalizing s requests with
  | nil =>
    cases requests with
    | nil => cases h
    | cons r requests =>
      obtain ⟨rfl, -⟩ := List.cons.inj h
      exact ⟨[], requests, rfl, rfl, rfl⟩
  | cons b before ih =>
    cases requests with
    | nil => cases h
    | cons r requests =>
      obtain ⟨rfl, htail⟩ := List.cons.inj h
      obtain ⟨earlier, rest, rfl, rfl, hprice⟩ := ih htail
      exact ⟨r :: earlier, rest, rfl, rfl, hprice⟩

/-! ## What a request reads and writes -/

/-- Nothing that concerns a neighbor differs. -/
structure AgreesFor (n : Name) (s s' : LoadAware α) : Prop where
  maxMultiplier_eq : s.maxMultiplier = s'.maxMultiplier
  latencies_eq : s.latencies[n]? = s'.latencies[n]?
  prices_eq : s.prices[n]? = s'.prices[n]?

/-- The price that is offered to a neighbor's price in force. -/
def offer (s : LoadAware α) (r : PriceRequest α) : α :=
  s.undamped r.metrics.configuredCost r.millis (s.observed r.neighbor r.millis)

/-- A request is answered when its round-trip time has been entered. -/
theorem answer_eq (s : LoadAware α) (r : PriceRequest α) :
    s.answer r =
      { s with
        latencies := s.latencies.insert r.neighbor (s.observed r.neighbor r.millis) }.settle
        r.time r.neighbor (s.offer r) := by
  unfold answer price
  rw [r.rtt_eq]
  rfl

/-- What a request does: the price in force is quoted and kept, or the offered one takes its place;
in both cases the round-trip time is noted. -/
theorem answer_cases (s : LoadAware α) (r : PriceRequest α) :
    (∃ p, s.prices[r.neighbor]? = some p ∧ keeps p r.time (s.offer r) = true ∧
      s.answer r = (p.cost, { s with
        latencies := s.latencies.insert r.neighbor (s.observed r.neighbor r.millis) })) ∨
    ((∀ p, s.prices[r.neighbor]? = some p → keeps p r.time (s.offer r) = false) ∧
      s.answer r = (s.offer r, { s with
        latencies := s.latencies.insert r.neighbor (s.observed r.neighbor r.millis)
        prices := s.prices.insert r.neighbor ⟨s.offer r, r.time⟩ })) := by
  rw [answer_eq]
  unfold settle
  dsimp only
  cases hp : s.prices[r.neighbor]? with
  | none => exact .inr ⟨fun _ h => (by cases h), rfl⟩
  | some p =>
    dsimp only
    cases hkeeps : keeps p r.time (s.offer r) with
    | true => exact .inl ⟨p, rfl, hkeeps, rfl⟩
    | false => exact .inr ⟨fun _ h => by cases h; exact hkeeps, rfl⟩

/-- A request leaves alone what concerns the other neighbors. -/
theorem agreesFor_answer (hne : r.neighbor ≠ n) : (s.answer r).2.AgreesFor n s := by
  have hother : ∀ {β : Type} (map : NameMap β) (x : β),
      (map.insert r.neighbor x)[n]? = map[n]? := by
    intro β map x
    rw [Std.ExtTreeMap.getElem?_insert, if_neg (by simpa using hne)]
  rcases s.answer_cases r with ⟨p, -, -, heq⟩ | ⟨-, heq⟩
  · rw [heq]
    exact ⟨rfl, hother .., rfl⟩
  · rw [heq]
    exact ⟨rfl, hother .., hother ..⟩

omit [Scalar α] in
/-- What agrees in two steps agrees in both together. -/
theorem AgreesFor.trans {s'' : LoadAware α} (h : s.AgreesFor n s') (h' : s'.AgreesFor n s'') :
    s.AgreesFor n s'' :=
  ⟨h.maxMultiplier_eq.trans h'.maxMultiplier_eq, h.latencies_eq.trans h'.latencies_eq,
    h.prices_eq.trans h'.prices_eq⟩

/-- A request reads only what concerns its neighbor. -/
theorem AgreesFor.answer (h : s.AgreesFor r.neighbor s') :
    (s.answer r).1 = (s'.answer r).1 ∧ (s.answer r).2.AgreesFor r.neighbor (s'.answer r).2 := by
  have hobserved : s.observed r.neighbor r.millis = s'.observed r.neighbor r.millis := by
    rw [observed, observed, h.latencies_eq]
  have hoffer : s.offer r = s'.offer r := by
    rw [offer, offer, hobserved, undamped, undamped, h.maxMultiplier_eq]
  have hself : ∀ {β : Type} (map map' : NameMap β) (x : β),
      (map.insert r.neighbor x)[r.neighbor]? = (map'.insert r.neighbor x)[r.neighbor]? := by
    intro β map map' x
    rw [Std.ExtTreeMap.getElem?_insert_self, Std.ExtTreeMap.getElem?_insert_self]
  rw [s.answer_eq, s'.answer_eq, hobserved, hoffer]
  unfold settle
  dsimp only
  rw [h.prices_eq]
  split
  · exact ⟨rfl, h.maxMultiplier_eq, hself .., hself ..⟩
  · split
    · exact ⟨rfl, h.maxMultiplier_eq, hself .., h.prices_eq⟩
    · exact ⟨rfl, h.maxMultiplier_eq, hself .., hself ..⟩

/-- The quotes about a neighbor, and what is remembered of it, are the same as if there had been no
request about any other one. -/
theorem AgreesFor.quotes_filter (h : s.AgreesFor n s') (requests : List (PriceRequest α)) :
    (s.quotes requests).filter (fun q => q.request.neighbor = n) =
      s'.quotes (requests.filter fun r => r.neighbor = n) ∧
    (s.after requests).AgreesFor n (s'.after (requests.filter fun r => r.neighbor = n)) := by
  induction requests generalizing s s' with
  | nil => exact ⟨rfl, h⟩
  | cons r requests ih =>
    by_cases hr : r.neighbor = n
    · subst hr
      obtain ⟨hprice, hafter⟩ := h.answer
      obtain ⟨hquotes, hrest⟩ := ih hafter
      rw [List.filter_cons_of_pos (by simp)]
      refine ⟨?_, hrest⟩
      rw [quotes, List.filter_cons_of_pos (by simp), hquotes, hprice, quotes]
    · obtain ⟨hquotes, hrest⟩ := ih ((agreesFor_answer hr).trans h)
      rw [List.filter_cons_of_neg (by simpa using hr)]
      refine ⟨?_, hrest⟩
      rw [quotes, List.filter_cons_of_neg (by simpa using hr), hquotes]

end LoadAware

end

/-! ## The price in force -/

/-- The price that is in force after some quotes, with the time of the quote that brought it into
force: the first one with this price since the last one with another price. -/
inductive InForce {α : Type} : List (Quote α) → Price α → Prop where
  | quoted {own : List (Quote α)} {q : Quote α} : (∀ e ∈ own.getLast?, e.price ≠ q.price) →
      InForce (own ++ [q]) ⟨q.price, q.request.time⟩
  | again {own : List (Quote α)} {q : Quote α} {p : Price α} : InForce own p → q.price = p.cost →
      InForce (own ++ [q]) p

/-- The price in force is that of the last quote. -/
theorem InForce.getLast? {α : Type} {own : List (Quote α)} {p : Price α} (h : InForce own p) :
    own.getLast?.map (·.price) = some p.cost := by
  cases h with
  | quoted => simp
  | again _ hprice => simp [hprice]

/-- There is one price in force. -/
theorem InForce.unique {α : Type} {own : List (Quote α)} {p p' : Price α} (h : InForce own p)
    (h' : InForce own p') : p = p' := by
  -- The last quote has brought its price into force or repeated the one before, and cannot have
  -- done both.
  induction h generalizing p' with
  | @quoted own q hnew =>
    generalize hown : own ++ [q] = own' at h'
    cases h' with
    | quoted =>
      obtain ⟨-, rfl⟩ := List.append_singleton_inj.1 hown
      rfl
    | again hbefore hsame =>
      obtain ⟨rfl, rfl⟩ := List.append_singleton_inj.1 hown
      obtain ⟨e, he, heq⟩ := Option.map_eq_some_iff.1 hbefore.getLast?
      exact absurd (heq.trans hsame.symm) (hnew e he)
  | @again own q p hbefore hsame ih =>
    generalize hown : own ++ [q] = own' at h'
    cases h' with
    | quoted hnew =>
      obtain ⟨rfl, rfl⟩ := List.append_singleton_inj.1 hown
      obtain ⟨e, he, heq⟩ := Option.map_eq_some_iff.1 hbefore.getLast?
      exact absurd (heq.trans hsame.symm) (hnew e he)
    | again hbefore' =>
      obtain ⟨rfl, rfl⟩ := List.append_singleton_inj.1 hown
      exact ih hbefore'

/-- Without quotes no price is in force. -/
theorem not_inForce_nil {α : Type} {p : Price α} : ¬ InForce [] p := by
  generalize hown : ([] : List (Quote α)) = own
  rintro (_ | _)
  · exact absurd hown (by simp)
  · exact absurd hown (by simp)

/-- After a quote some price is in force. -/
theorem exists_inForce {α : Type} {own : List (Quote α)} (h : own ≠ []) : ∃ p, InForce own p := by
  classical
  induction own using List.reverseRecOn with
  | nil => exact absurd rfl h
  | append_singleton own q ih =>
    by_cases hsame : ∃ p, InForce own p ∧ q.price = p.cost
    · obtain ⟨p, hp, hprice⟩ := hsame
      exact ⟨p, .again hp hprice⟩
    · refine ⟨_, .quoted fun e he heq => ?_⟩
      obtain ⟨p, hp⟩ := ih (fun hnil => by simp [hnil] at he)
      obtain ⟨e', he', hcost⟩ := Option.map_eq_some_iff.1 hp.getLast?
      obtain rfl := Option.some.inj (he'.symm.trans he)
      exact hsame ⟨p, hp, heq.symm.trans hcost⟩

/-! ## The range of prices -/

namespace LoadAware

open Quantity (Between)

/-- An excess lies between none and the whole. -/
theorem between_excess (x b : ℝ) : Between 0 1 (excess (number x) (number b)) := by
  unfold excess
  rw [Quantity.zero_eq, Quantity.one_eq]
  split
  · exact ⟨0, rfl, le_rfl, zero_le_one⟩
  next hbaseline =>
  have hb : b ≠ 0 := fun h => hbaseline (by simp [h])
  rw [Quantity.number_sub_number, Quantity.number_div_number hb]
  exact Quantity.between_clamp zero_le_one _

/-- The load factor is at least 0 and at most 1. -/
theorem between_loadFactor (xs : List ℝ) : Between 0 1 (loadFactor (xs.map number)) := by
  have hzero : Between 0 1 0.0 := Quantity.between_zero le_rfl zero_le_one
  unfold loadFactor
  rw [List.getLast?_map, ← List.map_dropLast]
  cases xs.getLast? with
  | none => exact hzero
  | some last =>
    dsimp only [Option.map_some]
    rw [List.length_map]
    split
    · exact hzero
    next hearlier =>
    have hne : xs.dropLast ≠ [] := fun h => hearlier (by simp [h])
    rw [Scalar.sum_number, div_length_number hne]
    exact between_excess last _

/-- The jitter factor is at least 0 and at most 1. -/
theorem between_jitterFactor (xs : List ℝ) : Between 0 1 (jitterFactor (xs.map number)) := by
  unfold jitterFactor
  rcases variation?_number xs with hv | ⟨v, hpos, hv⟩
  · rw [hv]
    exact Quantity.between_zero le_rfl zero_le_one
  · rw [hv, Quantity.one_eq]
    exact Quantity.between_lesser zero_le_one hpos

/-- No factor takes anything off the configured cost, and the first one grows with the round-trip
time. -/
theorem exists_multiplier {x : ℝ} (hx : 0 ≤ x) (xs : List ℝ) :
    ∃ y, multiplier (number x) (xs.map number) = number y ∧
      1 + 3 / 10 * Real.log (1 + x / 100) ≤ y := by
  obtain ⟨load, hload, hload0, -⟩ := between_loadFactor xs
  obtain ⟨jitter, hjitter, hjitter0, -⟩ := between_jitterFactor xs
  have hln : Scalar.ln (1.0 + number x / 100.0) = number (Real.log (1 + x / 100)) := by
    rw [Quantity.hundred_eq, Quantity.one_eq, Quantity.number_div_number (by norm_num),
      Quantity.number_add_number, Quantity.ln_number (by positivity)]
  refine ⟨1 + 0.3 * Real.log (1 + x / 100) + 0.4 * load + 0.3 * jitter, ?_, ?_⟩
  · rw [multiplier, hln, hload, hjitter, Quantity.one_eq]
    simp only [Quantity.ofScientific_eq, Quantity.number_mul_number, Quantity.number_add_number]
  · norm_num
    linarith

/-- An undamped price is at least the configured cost and within the cap; it is the cap if the
round-trip time alone makes it so. -/
theorem exists_undamped {k x ms : ℝ} {s : LoadAware Quantity} (hs : s.maxMultiplier = number k)
    (hx : 0 < x) (hms : 0 ≤ ms) (xs : List ℝ) :
    ∃ y, s.undamped (number x) (number ms) (xs.map number) = number (x * min y k) ∧
      1 + 3 / 10 * Real.log (1 + ms / 100) ≤ y := by
  obtain ⟨y, hy, hle⟩ := exists_multiplier hms xs
  refine ⟨y, ?_, hle⟩
  rw [undamped, hs, hy, Quantity.number_mul_number, Quantity.number_mul_number,
    Quantity.lesser_number, mul_min_of_nonneg _ _ hx.le]

/-- The price before damping is between the configured cost and the cap. -/
theorem between_undamped {k x ms : ℝ} {s : LoadAware Quantity} (hs : s.maxMultiplier = number k)
    (hk : 1 ≤ k) (hx : 0 < x) (hms : 0 ≤ ms) (xs : List ℝ) :
    Between x (x * k) (s.undamped (number x) (number ms) (xs.map number)) := by
  obtain ⟨y, hy, hle⟩ := exists_undamped hs hx hms xs
  have hquotient : 0 ≤ ms / 100 := by positivity
  have hlatency : 0 ≤ Real.log (1 + ms / 100) := Real.log_nonneg (by linarith)
  refine ⟨_, hy, le_mul_of_one_le_right hx.le (le_min (by linarith) hk), ?_⟩
  exact mul_le_mul_of_nonneg_left (min_le_right _ _) hx.le

/-- A positive price is given up exactly if another one is offered that differs by a twentieth of it
or more, when five seconds have passed. -/
theorem not_keeps_iff {a b : ℝ} (ha : 0 < a) (since now : Instant) :
    keeps ⟨number a, since⟩ now (number b) = false ↔ a / 20 ≤ |b - a| ∧ since + spacing ≤ now := by
  have hsmall : Scalar.abs (number b - number a) / number a < 0.05 ↔ |b - a| < a / 20 := by
    have htwentieth : (0.05 : Quantity) = number (1 / 20) := by
      rw [Quantity.ofScientific_eq]
      norm_num
    rw [Quantity.number_sub_number, Quantity.abs_number, Quantity.number_div_number ha.ne',
      htwentieth, Quantity.number_lt_number, div_lt_iff₀ ha, div_eq_inv_mul a, one_div]
  have hpos : (0.0 : Quantity) < number a := by simpa [Quantity.zero_eq] using ha
  have hrecent : now - since < spacing ↔ ¬ since + spacing ≤ now := by
    have hspacing : 0 < spacing := by decide
    unfold Instant Duration at *
    omega
  simp only [keeps, hpos, hsmall, hrecent, decide_true, Bool.true_and, Bool.or_eq_false_iff,
    decide_eq_false_iff_not, not_lt, not_not]

end LoadAware

/-! ## What is remembered -/

section
open LoadAware (window spacing keeps fresh)
open Quantity (Between)

/-- What the strategy remembers of a neighbor after the quotes about it. -/
structure Accounts (k x : ℝ) (n : Name) (own : List (Quote Quantity)) (s : LoadAware Quantity) :
    Prop where
  maxMultiplier_eq : s.maxMultiplier = number k
  latencies_eq : (s.latencies[n]?).getD [] = latest window (own.map Quote.millis)
  within : ∀ q ∈ own, Between x (x * k) q.price
  inForce (p : Price Quantity) : s.prices[n]? = some p ↔ InForce own p

variable {k x : ℝ} {n : Name} {own : List (Quote Quantity)} {s : LoadAware Quantity}
  {r : PriceRequest Quantity}

/-- At first nothing is remembered of any neighbor. -/
theorem accounts_fresh (k x : ℝ) (n : Name) : Accounts k x n [] (fresh (number k)) where
  maxMultiplier_eq := rfl
  latencies_eq := by simp [fresh, latest]
  within := by simp
  inForce p := iff_of_false (by simp [fresh]) not_inForce_nil

/-- The round-trip times that a price is made from are the latest that came with requests. -/
theorem Accounts.observed (h : Accounts k x n own s) (q : Quote Quantity) :
    s.observed n q.request.millis = latest window ((own ++ [q]).map Quote.millis) := by
  rw [LoadAware.observed, h.latencies_eq, latest_latest_append, List.map_append]
  rfl

/-- The price that is offered is between the configured cost and the cap. -/
theorem Accounts.between_offer (h : Accounts k x n own s) (hk : 1 ≤ k) (hx : 0 < x)
    (hr : r.neighbor = n) (hconfigured : r.metrics.configuredCost = number x) :
    Between x (x * k) (s.offer r) := by
  have hmillis : ∀ a ∈ s.observed n r.millis, ∃ ms, number ms = a := by
    intro a ha
    rw [h.observed ⟨r, number x⟩] at ha
    obtain ⟨q, -, rfl⟩ := List.mem_map.1 (mem_of_mem_latest ha)
    exact ⟨_, (Duration.wholeMillis_eq q.request.rtt).symm⟩
  obtain ⟨samples, hsamples⟩ := exists_map_number hmillis
  rw [LoadAware.offer, hconfigured, hr, ← hsamples]
  exact LoadAware.between_undamped h.maxMultiplier_eq hk hx (Nat.cast_nonneg _) _

/-- The price in force is one that has been quoted. -/
theorem Accounts.between_inForce (h : Accounts k x n own s) {p : Price Quantity}
    (hp : InForce own p) : Between x (x * k) p.cost := by
  obtain ⟨q, hq, hcost⟩ := Option.map_eq_some_iff.1 hp.getLast?
  exact hcost ▸ h.within q (List.mem_of_getLast? hq)

/-- The price in force is given up for an offer only if that differs enough and it is time. -/
theorem Accounts.of_not_keeps (h : Accounts k x n own s) (hk : 1 ≤ k) (hx : 0 < x)
    (hr : r.neighbor = n) (hconfigured : r.metrics.configuredCost = number x) {p : Price Quantity}
    (hp : InForce own p) (hkeeps : keeps p r.time (s.offer r) = false) :
    ∃ a b, 0 < a ∧ p.cost = number a ∧ s.offer r = number b ∧ a / 20 ≤ |b - a| ∧
      p.madeAt + spacing ≤ r.time := by
  obtain ⟨a, ha, hxa, -⟩ := h.between_inForce hp
  obtain ⟨b, hb, -⟩ := h.between_offer hk hx hr hconfigured
  have hpos : 0 < a := hx.trans_le hxa
  obtain ⟨cost, since⟩ := p
  obtain rfl : cost = number a := ha
  rw [hb] at hkeeps
  obtain ⟨hdiffer, htime⟩ := (LoadAware.not_keeps_iff hpos since r.time).1 hkeeps
  exact ⟨a, b, hpos, rfl, hb, hdiffer, htime⟩

/-- Answering a request keeps the accounts. -/
theorem Accounts.answer (h : Accounts k x n own s) (hk : 1 ≤ k) (hx : 0 < x)
    (hr : r.neighbor = n) (hconfigured : r.metrics.configuredCost = number x) :
    Accounts k x n (own ++ [⟨r, (s.answer r).1⟩]) (s.answer r).2 := by
  subst hr
  rcases s.answer_cases r with ⟨p, hp, -, heq⟩ | ⟨hkeeps, heq⟩
  · rw [heq]
    have hforce : InForce own p := (h.inForce p).1 hp
    refine ⟨h.maxMultiplier_eq, ?_, ?_, fun p' => ?_⟩
    · rw [Std.ExtTreeMap.getElem?_insert_self, Option.getD_some]
      exact h.observed ⟨r, _⟩
    · exact List.forall_mem_append.2 ⟨h.within, by simpa using h.between_inForce hforce⟩
    · have hagain : InForce (own ++ [⟨r, p.cost⟩]) p := .again hforce rfl
      rw [hp, Option.some.injEq]
      exact ⟨fun h => h ▸ hagain, fun h => hagain.unique h⟩
  · rw [heq]
    -- A price that is not kept differs from the one in force by more than nothing.
    have hquoted : InForce (own ++ [⟨r, s.offer r⟩]) ⟨s.offer r, r.time⟩ := by
      refine .quoted fun e he hsame => ?_
      obtain ⟨p, hp⟩ : ∃ p, InForce own p := exists_inForce fun hnil => by simp [hnil] at he
      obtain ⟨e', he', hcost⟩ := Option.map_eq_some_iff.1 hp.getLast?
      obtain rfl := Option.some.inj (he'.symm.trans he)
      obtain ⟨a, b, hpos, ha, hb, hdiffer, -⟩ :=
        h.of_not_keeps hk hx rfl hconfigured hp (hkeeps p ((h.inForce p).2 hp))
      have hba : number b = number a := by
        rw [← ha, ← hb, ← hcost]
        exact hsame.symm
      rw [Quantity.number.inj hba, sub_self, abs_zero] at hdiffer
      linarith
    refine ⟨h.maxMultiplier_eq, ?_, ?_, fun p' => ?_⟩
    · rw [Std.ExtTreeMap.getElem?_insert_self, Option.getD_some]
      exact h.observed ⟨r, _⟩
    · exact List.forall_mem_append.2
        ⟨h.within, by simpa using h.between_offer hk hx rfl hconfigured⟩
    · rw [Std.ExtTreeMap.getElem?_insert_self, Option.some.injEq]
      exact ⟨fun h => h ▸ hquoted, fun h => hquoted.unique h⟩

/-- The accounts are kept along any requests about a neighbor. -/
theorem accounts_after (hk : 1 ≤ k) (hx : 0 < x) {requests : List (PriceRequest Quantity)}
    (hneighbor : ∀ r ∈ requests, r.neighbor = n)
    (hconfigured : ∀ r ∈ requests, r.metrics.configuredCost = number x) :
    Accounts k x n ((fresh (number k)).quotes requests) ((fresh (number k)).after requests) := by
  induction requests using List.reverseRecOn with
  | nil => exact accounts_fresh k x n
  | append_singleton requests r ih =>
    rw [List.forall_mem_append] at hneighbor hconfigured
    have hafter : (fresh (number k)).after (requests ++ [r]) =
        (((fresh (number k)).after requests).answer r).2 := List.foldl_concat ..
    rw [LoadAware.quotes_append, hafter]
    exact (ih hneighbor.1 hconfigured.1).answer hk hx (hneighbor.2 r List.mem_cons_self)
      (hconfigured.2 r List.mem_cons_self)

/-! ## Damping -/

/-- What the quotes about a neighbor are to be that is configured to cost `x`. -/
structure Damped (k x : ℝ) (own : List (Quote Quantity)) : Prop where
  /-- They are at least the configured cost and within the cap. -/
  within : ∀ q ∈ own, Between x (x * k) q.price
  /-- Where a quote differs from the one before, it does so by a twentieth of that or more, and that
  has been in force for five seconds. -/
  replaced {before later : List (Quote Quantity)} {v q : Quote Quantity} :
    own = before ++ v :: q :: later → q.price ≠ v.price →
      ∃ a b since, v.price = number a ∧ q.price = number b ∧ a / 20 ≤ |b - a| ∧
        InForce (before ++ [v]) ⟨v.price, since⟩ ∧ since + spacing ≤ q.request.time
  /-- The price on offer is made from the latest ten round-trip times, or all if there are fewer,
  and it is quoted unless the price in force is kept. -/
  priced {before later : List (Quote Quantity)} {q : Quote Quantity} :
    own = before ++ q :: later →
      let samples := latest window ((before ++ [q]).map Quote.millis)
      let offer := (fresh (number k)).undamped (number x) q.millis samples
      samples.length = min (before.length + 1) window ∧ (before = [] → q.price = offer) ∧
      ∀ p, InForce before p → q.price = if keeps p q.request.time offer then p.cost else offer

/-- The quotes about one neighbor are damped. -/
theorem damped_quotes (hk : 1 ≤ k) (hx : 0 < x) {requests : List (PriceRequest Quantity)}
    (hneighbor : ∀ r ∈ requests, r.neighbor = n)
    (hconfigured : ∀ r ∈ requests, r.metrics.configuredCost = number x) :
    Damped k x ((fresh (number k)).quotes requests) := by
  -- At every quote the accounts of those before it hold.
  have split : ∀ {before later : List (Quote Quantity)} {q : Quote Quantity},
      (fresh (number k)).quotes requests = before ++ q :: later → ∃ s, Accounts k x n before s ∧
        q.price = (s.answer q.request).1 ∧ q.request.neighbor = n ∧
        q.request.metrics.configuredCost = number x := by
    intro before later q hown
    obtain ⟨earlier, rest, rfl, rfl, hprice⟩ := LoadAware.quotes_split hown
    rw [List.forall_mem_append, List.forall_mem_cons] at hneighbor hconfigured
    exact ⟨_, accounts_after hk hx hneighbor.1 hconfigured.1, hprice, hneighbor.2.1,
      hconfigured.2.1⟩
  refine ⟨(accounts_after hk hx hneighbor hconfigured).within, ?_, ?_⟩
  · intro before later v q hown hne
    obtain ⟨s, hs, hprice, hq, hcost⟩ :=
      split (show _ = (before ++ [v]) ++ q :: later by simpa using hown)
    obtain ⟨p, hp⟩ : ∃ p, InForce (before ++ [v]) p := exists_inForce (by simp)
    obtain hv : v.price = p.cost := by simpa using hp.getLast?
    rcases s.answer_cases q.request with ⟨p', hp', -, heq⟩ | ⟨hkeeps, heq⟩
    · rw [hq, hs.inForce] at hp'
      rw [hprice, heq, hv, hp.unique hp'] at hne
      exact absurd rfl hne
    · obtain ⟨a, b, -, ha, hb, hdiffer, htime⟩ := hs.of_not_keeps hk hx hq hcost hp
        (hkeeps p (hq ▸ (hs.inForce p).2 hp))
      refine ⟨a, b, p.madeAt, hv.trans ha, ?_, hdiffer, hv ▸ hp, htime⟩
      rw [hprice, heq, hb]
  · intro before later q hown
    obtain ⟨s, hs, hprice, hq, hcost⟩ := split hown
    have hoffer : s.offer q.request = (fresh (number k)).undamped (number x) q.millis
        (latest window ((before ++ [q]).map Quote.millis)) := by
      rw [LoadAware.offer, LoadAware.undamped, hs.maxMultiplier_eq, hcost, hq, hs.observed q]
      rfl
    refine ⟨by simp [latest]; omega, fun hnil => ?_, fun p hp => ?_⟩
    · rw [hprice, ← hoffer]
      rcases s.answer_cases q.request with ⟨p, hp, -⟩ | ⟨-, heq⟩
      · rw [hq, hs.inForce, hnil] at hp
        exact absurd hp not_inForce_nil
      · rw [heq]
    · rw [hprice, ← hoffer]
      rcases s.answer_cases q.request with ⟨p', hp', hkeeps, heq⟩ | ⟨hkeeps, heq⟩
      · rw [hq, hs.inForce] at hp'
        rw [heq, hp.unique hp', if_pos hkeeps]
      · rw [heq, hkeeps p (hq ▸ (hs.inForce p).2 hp), if_neg Bool.false_ne_true]

/-- The last price is the one that is remembered. -/
theorem Accounts.lastCost? (h : Accounts k x n own s) :
    s.lastCost? n = own.getLast?.map (·.price) := by
  unfold LoadAware.lastCost?
  cases hp : s.prices[n]? with
  | none =>
    have hnil : own = [] := by
      by_contra hne
      obtain ⟨p, hforce⟩ := exists_inForce hne
      rw [← h.inForce, hp] at hforce
      cases hforce
    rw [hnil]
    rfl
  | some p => exact ((h.inForce p).1 hp).getLast?.symm

/-- **Load-aware prices are bounded, damped and made for each neighbor alone.** Take any requests
for prices of links with a round-trip time, about any neighbors and at any times, with the cap at
least the configured cost. The quotes about a neighbor that is configured to cost the same all the
time are within its cost and the cap; where one differs from the one before, it does so by a
twentieth or more, and the one before was first quoted five seconds ago or more; each is made from
the latest ten round-trip times of the neighbor. The last one is what is remembered, and they are
the same without the requests about other neighbors. -/
theorem prices_damped (hk : 1 ≤ k) (hx : 0 < x) (n : Name)
    {requests : List (PriceRequest Quantity)}
    (hconfigured : ∀ r ∈ requests, r.neighbor = n → r.metrics.configuredCost = number x) :
    let own := ((fresh (number k)).quotes requests).filter fun q => q.request.neighbor = n
    Damped k x own ∧
    ((fresh (number k)).after requests).lastCost? n = own.getLast?.map (·.price) ∧
    own = (fresh (number k)).quotes (requests.filter fun r => r.neighbor = n) := by
  intro own
  have hsame : (fresh (number k)).AgreesFor n (fresh (number k)) := ⟨rfl, rfl, rfl⟩
  obtain ⟨hown, hafter⟩ := hsame.quotes_filter requests
  have hneighbor : ∀ r ∈ requests.filter fun r => r.neighbor = n, r.neighbor = n :=
    fun r hr => by simpa using (List.mem_filter.1 hr).2
  have hcost : ∀ r ∈ requests.filter fun r => r.neighbor = n,
      r.metrics.configuredCost = number x :=
    fun r hr => hconfigured r (List.mem_filter.1 hr).1 (hneighbor r hr)
  have haccounts := accounts_after hk hx hneighbor hcost
  rw [← hown] at haccounts
  refine ⟨?_, ?_, hown⟩
  · show Damped k x (((fresh (number k)).quotes requests).filter fun q => q.request.neighbor = n)
    exact hown ▸ damped_quotes hk hx hneighbor hcost
  · rw [LoadAware.lastCost?, hafter.prices_eq]
    exact haccounts.lastCost?

end

namespace Surge

open LoadAware (fresh keeps spacing)

def busy : Name := { components := ["busy"] }

def calm : Name := { components := ["calm"] }

/-- A request about a link with a round-trip time in milliseconds. -/
noncomputable def request (time : Instant) (n : Name) (cost millis : ℕ) :
    PriceRequest Quantity where
  time := time
  neighbor := n
  cost := number cost
  metrics := ⟨n, .active, number cost, number cost, 0, 0, [], some (.ofMillis millis)⟩
  rtt := .ofMillis millis
  rtt_eq := rfl

noncomputable def early : PriceRequest Quantity := request 0 busy 4 0

noncomputable def soon : PriceRequest Quantity := request (Duration.ofSeconds 2) busy 4 400

noncomputable def late : PriceRequest Quantity := request (Duration.ofSeconds 6) busy 4 400

/-- The round-trip time of `busy` rises; two seconds later the price is still kept, and after six
seconds it follows. -/
noncomputable def requests : List (PriceRequest Quantity) :=
  [early, request (Duration.ofSeconds 1) calm 3 30, soon, late]

/-- The round-trip time of the request is what it was made from. -/
theorem millis_request (time : Instant) (n : Name) (cost millis : ℕ) :
    (request time n cost millis).millis = number millis := by
  rw [PriceRequest.millis, Duration.wholeMillis_eq]
  exact congrArg (fun n : Nat => number n) (Nat.mul_div_cancel millis (by decide))

/-- A link that has no delay costs what it is configured to. -/
theorem undamped_no_delay :
    (fresh (number (11 / 10))).undamped (number 4) (number 0) [number 0] = number 4 := by
  have hvariation : variation? [number 0] = none := by
    have hmean : mean? [number 0] = some (number 0) := by
      simpa using mean?_number (show ([0] : List ℝ) ≠ [] by simp)
    rw [variation?, hmean]
    simp [Quantity.zero_eq]
  have hmultiplier : LoadAware.multiplier (number 0) [number 0] = number 1 := by
    have hln : Scalar.ln (1.0 + number 0 / 100.0) = number 0 := by
      rw [Quantity.hundred_eq, Quantity.one_eq, Quantity.number_div_number (by norm_num),
        Quantity.number_add_number, Quantity.ln_number (by norm_num)]
      norm_num
    rw [LoadAware.multiplier, hln, LoadAware.jitterFactor, hvariation]
    simp [LoadAware.loadFactor, Quantity.ofScientific_eq]
    norm_num
  rw [LoadAware.undamped, hmultiplier]
  simp only [fresh, Quantity.number_mul_number, Quantity.lesser_number]
  norm_num

/-- A link with a delay of 400 ms costs as much as is allowed, whatever its delay was before. -/
theorem undamped_long_delay (xs : List ℝ) :
    (fresh (number (11 / 10))).undamped (number 4) (number 400) (xs.map number) =
      number (22 / 5) := by
  obtain ⟨y, hy, hle⟩ := LoadAware.exists_undamped (s := fresh (number (11 / 10))) rfl
    (show (0 : ℝ) < 4 by norm_num) (show (0 : ℝ) ≤ 400 by norm_num) xs
  have hlog : 4 / 5 ≤ Real.log (1 + 400 / 100) := by
    have hbound := Real.one_sub_inv_le_log_of_pos (show (0 : ℝ) < 1 + 400 / 100 by norm_num)
    norm_num at hbound ⊢
    exact hbound
  rw [hy, min_eq_right (by linarith)]
  norm_num

/-- Damping leaves one choice for each of the three prices. -/
theorem prices_of_damped {a b c : Quantity}
    (h : Damped (11 / 10) 4 [⟨early, a⟩, ⟨soon, b⟩, ⟨late, c⟩]) :
    a = number 4 ∧ b = number 4 ∧ c = number (22 / 5) := by
  have hearly : early.millis = number 0 := by simp [early, millis_request]
  have hsoon : soon.millis = number 400 := by simp [soon, millis_request]
  have hlate : late.millis = number 400 := by simp [late, millis_request]
  obtain ⟨-, hfirst, -⟩ := h.priced (show _ = [] ++ _ :: _ from rfl)
  obtain ⟨-, -, hsecond⟩ := h.priced (show _ = [⟨early, a⟩] ++ _ :: _ from rfl)
  obtain ⟨-, -, hthird⟩ := h.priced (show _ = [⟨early, a⟩, ⟨soon, b⟩] ++ _ :: _ from rfl)
  have ha : a = number 4 := by
    have hsamples : latest LoadAware.window ([number 0] : List Quantity) = [number 0] := rfl
    simpa [Quote.millis, hearly, hsamples, undamped_no_delay] using hfirst
  have hforce : InForce ([] ++ [(⟨early, a⟩ : Quote Quantity)]) ⟨a, 0⟩ := .quoted (by simp)
  have hb : b = a := by
    have hyoung : soon.time - 0 < spacing := by decide
    refine (hsecond _ hforce).trans (if_pos ?_)
    rw [keeps, Bool.or_eq_true]
    exact .inr (decide_eq_true hyoung)
  have hforce' : InForce ([⟨early, a⟩] ++ [(⟨soon, b⟩ : Quote Quantity)]) ⟨a, 0⟩ :=
    .again hforce hb
  have hc : c = number (22 / 5) := by
    have hsamples : latest LoadAware.window ([⟨early, a⟩, ⟨soon, b⟩, ⟨late, c⟩].map Quote.millis) =
        [0, 400, 400].map number := by
      simp [Quote.millis, hearly, hsoon, hlate, latest, LoadAware.window]
    have hoffer : (fresh (number (11 / 10))).undamped (number 4) late.millis
        (latest LoadAware.window ([⟨early, a⟩, ⟨soon, b⟩, ⟨late, c⟩].map Quote.millis)) =
          number (22 / 5) := by
      rw [hsamples, hlate, undamped_long_delay]
    have hgiven : keeps ⟨a, 0⟩ late.time (number (22 / 5)) = false := by
      rw [ha, LoadAware.not_keeps_iff (by norm_num)]
      exact ⟨by norm_num, by decide⟩
    rw [← hoffer] at hgiven
    exact (hthird _ hforce').trans ((if_neg (ne_true_of_eq_false hgiven)).trans hoffer)
  exact ⟨ha, hb.trans ha, hc⟩

/-- The first price is kept after two seconds, and the cap is reached after six. -/
theorem prices_busy : (1 : ℝ) ≤ 11 / 10 ∧ (0 : ℝ) < 4 ∧
    (∀ r ∈ requests, r.neighbor = busy → r.metrics.configuredCost = number 4) ∧
    let own := ((fresh (number (11 / 10))).quotes requests).filter fun q =>
      q.request.neighbor = busy
    Damped (11 / 10) 4 own ∧ own.map (·.price) = [number 4, number 4, number (22 / 5)] ∧
    ((fresh (number (11 / 10))).after requests).lastCost? busy = some (number (22 / 5)) := by
  have hcalm : calm ≠ busy := by decide
  have hcost : ∀ r ∈ requests, r.neighbor = busy → r.metrics.configuredCost = number 4 := by
    simp [requests, early, soon, late, request, hcalm]
  obtain ⟨hdamped, hlast, hown⟩ :=
    prices_damped (k := 11 / 10) (x := 4) (by norm_num) (by norm_num) busy hcost
  refine ⟨by norm_num, by norm_num, hcost, hdamped, ?_⟩
  have hrequests : (requests.filter fun r => r.neighbor = busy) = [early, soon, late] := by
    simp [requests, early, soon, late, request, hcalm]
  obtain ⟨a, b, c, hquotes⟩ : ∃ a b c, (fresh (number (11 / 10))).quotes [early, soon, late] =
      [⟨early, a⟩, ⟨soon, b⟩, ⟨late, c⟩] := ⟨_, _, _, rfl⟩
  rw [hrequests, hquotes] at hown
  rw [hown] at hdamped hlast ⊢
  obtain ⟨rfl, rfl, rfl⟩ := prices_of_damped hdamped
  exact ⟨rfl, hlast⟩

end Surge

end AdaptiveRouting
