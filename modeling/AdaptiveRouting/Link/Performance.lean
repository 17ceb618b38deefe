import AdaptiveRouting.Statistics
import AdaptiveRouting.Time.Duration

/-!
# Performance score

How badly a link performs right now, from 0 for a link beyond reproach to 1. The score blends four
partial scores, each from 0 to 1: latency by bands (`latencyScore`), jitter over the latest five
samples (`stabilityScore`), missed hellos (`reliabilityScore`) and whether the latest three samples
are slower than the three before them (`trendScore`).
-/

namespace AdaptiveRouting.Performance

variable {α : Type} [Scalar α]

/-- The score of a round-trip time in milliseconds, linear between the borders of five bands. -/
def latencyScore (ms : α) : α :=
  if ms ≤ 10.0 then 0.0
  else if ms ≤ 50.0 then (ms - 10.0) / (50.0 - 10.0) * 0.3
  else if ms ≤ 100.0 then 0.3 + (ms - 50.0) / (100.0 - 50.0) * 0.3
  else if ms ≤ 200.0 then 0.6 + (ms - 100.0) / (200.0 - 100.0) * 0.3
  else 0.9 + Scalar.lesser 0.1 ((ms - 200.0) / 800.0 * 0.1)

def variationScore (v : α) : α :=
  if v ≤ 0.1 then 0.0
  else if v ≤ 0.3 then v / 0.3 * 0.4
  else 0.4 + Scalar.lesser 0.6 ((v - 0.3) / 0.7 * 0.6)

/-- The score of the jitter among the latest five samples; undecided with fewer than three. -/
def stabilityScore (history : List Duration) : α :=
  if history.length < 3 then 0.5
  else variationScore ((variation? ((latest 5 history).map Duration.wholeMillis)).getD 0.0)

def reliabilityScore (timeouts : Nat) : α :=
  if timeouts = 0 then 0.0 else if timeouts ≤ 2 then 0.2 else if timeouts ≤ 5 then 0.5 else 0.8

def averageOfThree (samples : List Duration) : α :=
  Scalar.sum (samples.map Duration.wholeMillis) / 3.0

def changeScore (change : α) : α :=
  if change ≤ -0.1 then 0.0 else if change ≤ 0.1 then 0.2 else if change ≤ 0.3 then 0.5 else 0.8

/-- The score of the latest three samples against the three before them. -/
def trendScore (history : List Duration) : α :=
  if history.length < 6 then 0.0
  else
    let recent : α := averageOfThree (latest 3 history)
    let previous : α := averageOfThree ((latest 6 history).take 3)
    if previous ≤ 0.0 then 0.0 else changeScore ((recent - previous) / previous)

/-- The weighted sum of the partial scores. -/
def blend (rtt : Duration) (history : List Duration) (timeouts : Nat) : α :=
  0.4 * latencyScore rtt.wholeMillis + 0.25 * stabilityScore history
    + 0.2 * reliabilityScore timeouts + 0.15 * trendScore history

def score (rtt : Duration) (history : List Duration) (timeouts : Nat) : α :=
  Scalar.clamp (blend rtt history timeouts) 0.0 1.0

end AdaptiveRouting.Performance
