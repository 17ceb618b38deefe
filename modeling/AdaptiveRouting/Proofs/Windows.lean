import AdaptiveRouting.Statistics

/-!
# Windows on a growing list

A bounded history shows the last entries of everything that was ever written down. It is kept one
entry at a time, from the history alone (`keep`); that this shows the same as looking at the whole
list comes from one fact, that what has left a window does not come back when the window moves on
(`latest_latest_append`).
-/

namespace AdaptiveRouting

variable {β γ : Type}

/-- What has left a window does not come back when the window moves on. -/
theorem latest_latest_append (n : Nat) (xs ys : List β) :
    latest n (latest n xs ++ ys) = latest n (xs ++ ys) := by
  have hwindow : latest n xs ++ ys = (xs ++ ys).drop (xs.length - n) :=
    (List.drop_append_of_le_length (Nat.sub_le ..)).symm
  rw [hwindow]
  unfold latest
  rw [List.drop_drop, List.length_drop, List.length_append]
  congr 1
  omega

/-- Notes down what there is to note in a window. -/
def keep (n : Nat) (window : List β) : Option β → List β
  | none => window
  | some x => latest n (window ++ [x])

/-- A window of the latest entries takes one more. -/
theorem keep_latest (n : Nat) (xs : List β) (entry : Option β) :
    keep n (latest n xs) entry = latest n (xs ++ entry.toList) := by
  cases entry with
  | none => rw [keep, Option.toList_none, List.append_nil]
  | some x => exact latest_latest_append n xs [x]

/-- A window holds no more than its size. -/
theorem length_latest_le (n : Nat) (xs : List β) : (latest n xs).length ≤ n := by
  rw [latest, List.length_drop]
  omega

/-- What is in the window has been entered. -/
theorem mem_of_mem_latest {n : Nat} {xs : List β} {x : β} (h : x ∈ latest n xs) : x ∈ xs :=
  List.mem_of_mem_drop h

/-- What is in the window was in it before or is the new entry. -/
theorem mem_of_mem_keep {n : Nat} {window : List β} {entry : Option β} {x : β}
    (h : x ∈ keep n window entry) : x ∈ window ∨ entry = some x := by
  cases entry with
  | none => exact .inl h
  | some y =>
    refine (List.mem_append.1 (mem_of_mem_latest h)).imp_right fun hy => ?_
    rw [List.mem_singleton.1 hy]

/-- A window of images is the image of the window. -/
theorem latest_map (n : Nat) (f : β → γ) (xs : List β) :
    latest n (xs.map f) = (latest n xs).map f := by
  rw [latest, latest, List.length_map, List.map_drop]

/-- A window with room is not empty after an entry. -/
theorem latest_append_singleton_ne_nil {n : Nat} (h : 0 < n) (xs : List β) (x : β) :
    latest n (xs ++ [x]) ≠ [] := by
  intro hnil
  have hlength := congrArg List.length hnil
  simp [latest] at hlength
  omega

/-- One more element adds its image, if it has one. -/
theorem filterMap_concat (f : β → Option γ) (xs : List β) (x : β) :
    (xs ++ [x]).filterMap f = xs.filterMap f ++ (f x).toList := by
  rw [List.filterMap_append]
  cases h : f x <;> simp [h]

end AdaptiveRouting
