import AdaptiveRouting.Scalar

/-!
# Statistics of a sample

The mean and the coefficient of variation of a list of numbers. Both are absent for an empty
list, and the variation is absent also when the mean is not positive: a ratio to such a mean says
nothing about how much a link's latency varies.

`latest n xs` is the window of the last `n` elements; a bounded history is such a window of all
that was ever recorded.
-/

namespace AdaptiveRouting

/-- The last `n` elements, or all of them when there are fewer. -/
def latest {β : Type} (n : Nat) (xs : List β) : List β := xs.drop (xs.length - n)

section
variable {α : Type} [Scalar α]

def mean? (xs : List α) : Option α :=
  if xs.isEmpty then none else some (Scalar.sum xs / Scalar.ofCount xs.length)

/-- The mean of the squared distances to `m`. -/
def spreadAround (m : α) (xs : List α) : α :=
  Scalar.sum (xs.map fun x => (x - m) * (x - m)) / Scalar.ofCount xs.length

/-- The standard deviation as a fraction of the mean. -/
def variation? (xs : List α) : Option α :=
  match mean? xs with
  | none => none
  | some m =>
    if m ≤ 0.0 then none
    else some (Scalar.sqrt (Scalar.greater (spreadAround m xs) 0.0) / m)

end

end AdaptiveRouting
