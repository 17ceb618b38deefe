import Std.Data.ExtTreeMap
import Std.Data.ExtTreeSet

/-!
# Hierarchical names

A router, a destination and a probe are named by a path: a list of components, each of them a
text that is not empty and holds no slash. `Name.ofString` reads a path leniently, since repeated,
leading and trailing slashes separate nothing, and `Name.text` writes the one canonical form, with
a slash before every component and a lone slash for the root. Reading undoes writing
(`Name.ofString_text`), so the canonical form determines the name (`Name.text_injective`), and
names are ordered by it: the order of its characters, which is the order of its bytes.

`NameMap` is a finite map keyed by names; it is listed in their order.
-/

namespace AdaptiveRouting

/-! ## Cutting a path at its slashes -/

/-- The pieces of a text between its slashes, empty ones included. -/
def cutAtSlashes : List Char → List (List Char)
  | [] => [[]]
  | c :: rest =>
    if c = '/' then [] :: cutAtSlashes rest
    else
      match cutAtSlashes rest with
      | [] => [[c]]
      | piece :: pieces => (c :: piece) :: pieces

/-- The pieces of a text between its slashes that are not empty. -/
def pathPieces (cs : List Char) : List (List Char) := (cutAtSlashes cs).filter (· ≠ [])

/-- Cutting at slashes is what the library calls splitting. -/
theorem cutAtSlashes_eq_splitOn (cs : List Char) : cutAtSlashes cs = cs.splitOn '/' := by
  induction cs with
  | nil => rfl
  | cons c cs ih =>
    rw [cutAtSlashes, List.splitOn_cons_eq_if_modifyHead, ih]
    by_cases hc : c = '/'
    · simp [hc]
    · cases hcut : cs.splitOn '/' with
      | nil => exact absurd hcut (List.splitOn_ne_nil '/' cs)
      | cons piece pieces => simp [hc]

/-- No piece holds a slash. -/
theorem slash_notMem_of_mem_cutAtSlashes {cs piece : List Char} (h : piece ∈ cutAtSlashes cs) :
    '/' ∉ piece := by
  induction cs generalizing piece with
  | nil => simp_all [cutAtSlashes]
  | cons c rest ih =>
    unfold cutAtSlashes at h
    split at h
    · rcases List.mem_cons.1 h with rfl | h
      · simp
      · exact ih h
    · next hc =>
      split at h
      · rcases List.mem_singleton.1 h with rfl
        simpa using Ne.symm hc
      · next piece' pieces heq =>
        rw [heq] at ih
        rcases List.mem_cons.1 h with rfl | h
        · have := ih (List.mem_cons_self ..)
          simp [this, Ne.symm hc]
        · exact ih (List.mem_cons_of_mem _ h)

/-- A text without a slash is its only piece. -/
theorem cutAtSlashes_of_notMem {cs : List Char} (h : '/' ∉ cs) : cutAtSlashes cs = [cs] := by
  rw [cutAtSlashes_eq_splitOn, List.splitOn_eq_singleton h]

/-- A slash separates the pieces before it from those after it. -/
theorem cutAtSlashes_append (as bs : List Char) :
    cutAtSlashes (as ++ '/' :: bs) = cutAtSlashes as ++ cutAtSlashes bs := by
  simp only [cutAtSlashes_eq_splitOn, List.splitOn_append_cons_self]

/-- A slash separates the pieces of what stands on its two sides. -/
theorem pathPieces_append (as bs : List Char) :
    pathPieces (as ++ '/' :: bs) = pathPieces as ++ pathPieces bs := by
  simp [pathPieces, cutAtSlashes_append]

/-- A text without slashes is a single piece, unless it is empty. -/
theorem pathPieces_of_notMem {cs : List Char} (hne : cs ≠ []) (h : '/' ∉ cs) :
    pathPieces cs = [cs] := by
  simp [pathPieces, cutAtSlashes_of_notMem h, hne]

/-! ## Names -/

/-- A text that can stand between two slashes. -/
def IsComponent (s : String) : Prop := s.toList ≠ [] ∧ '/' ∉ s.toList

instance (s : String) : Decidable (IsComponent s) := inferInstanceAs (Decidable (_ ∧ _))

/-- A path of components, from the root down. -/
structure Name where
  /-- The components in order. -/
  components : List String
  /-- None of them is empty or holds a slash. -/
  proper : ∀ c ∈ components, IsComponent c := by decide
deriving DecidableEq

namespace Name

/-- The empty path. -/
def root : Name := ⟨[], by simp⟩

instance : Inhabited Name := ⟨root⟩

/-- Names with the same components are the same. -/
@[ext] theorem ext {n m : Name} (h : n.components = m.components) : n = m := by
  cases n; cases m; simp_all

/-- Reads a path; slashes that separate nothing are ignored. -/
def ofString (s : String) : Name where
  components := (pathPieces s.toList).map String.ofList
  proper := by
    intro c hc
    obtain ⟨piece, hp, rfl⟩ := List.mem_map.1 hc
    obtain ⟨hcut, hne⟩ := List.mem_filter.1 hp
    exact ⟨by simpa using hne, by simpa using slash_notMem_of_mem_cutAtSlashes hcut⟩

/-- The characters of the canonical form of a list of components. -/
def joined (cs : List String) : List Char := cs.flatMap fun c => '/' :: c.toList

/-- The canonical form: a slash before every component, a lone slash for the root. -/
def text (n : Name) : String :=
  if n.components = [] then "/" else String.ofList (joined n.components)

instance : ToString Name := ⟨text⟩

/-- The number of components. -/
def length (n : Name) : Nat := n.components.length

def isRoot (n : Name) : Bool := n.components.isEmpty

/-- The name below `n` along the path `s`. -/
def append (n : Name) (s : String) : Name where
  components := n.components ++ (ofString s).components
  proper c hc := by
    rcases List.mem_append.1 hc with hc | hc
    · exact n.proper c hc
    · exact (ofString s).proper c hc

/-- The name without its last `k` components; the root when it has no more than `k`. -/
def dropLast (n : Name) (k : Nat) : Name where
  components := n.components.take (n.length - k)
  proper c hc := n.proper c (List.mem_of_mem_take hc)

def last? (n : Name) : Option String := n.components.getLast?

/-- Whether `m` lies at or below `n`. -/
def isAncestorOf (n m : Name) : Bool := n.components.isPrefixOf m.components

/-- The components of an appended text come behind those of the name. -/
theorem components_append_ofString (n : Name) (s : String) :
    (n.append s).components = n.components ++ (ofString s).components := rfl

/-- An ancestor is a prefix in the order of lists. -/
theorem isAncestorOf_iff {n m : Name} : n.isAncestorOf m = true ↔ n.components <+: m.components :=
  List.isPrefixOf_iff_prefix

/-! ## The canonical form -/

/-- What has been joined with slashes falls into the same pieces again. -/
theorem pathPieces_joined {cs : List String} (h : ∀ c ∈ cs, IsComponent c) :
    pathPieces (joined cs) = cs.map String.toList := by
  -- A piece may already have been begun when the rest is cut, so the induction needs its letters.
  suffices ∀ as, '/' ∉ as → pathPieces (as ++ joined cs) =
      (if as = [] then [] else [as]) ++ cs.map String.toList by
    simpa using this [] (by simp)
  induction cs with
  | nil =>
    intro as has
    by_cases hne : as = []
    · subst hne; rfl
    · simp [joined, hne, pathPieces_of_notMem hne has]
  | cons c cs ih =>
    intro as has
    obtain ⟨hc, hcs⟩ := List.forall_mem_cons.1 h
    have hj : joined (c :: cs) = '/' :: (c.toList ++ joined cs) := by simp [joined]
    rw [hj, pathPieces_append, ih hcs _ hc.2]
    by_cases hne : as = []
    · subst hne; simp [hc.1]; rfl
    · simp [hne, hc.1, pathPieces_of_notMem hne has]

/-- Reading a canonical form gives the name back. -/
@[simp] theorem ofString_text (n : Name) : ofString n.text = n := by
  apply ext
  by_cases h : n.components = []
  · simp only [ofString, text, h, if_true]; rfl
  · simp only [ofString, text, h, if_false, String.toList_ofList, pathPieces_joined n.proper,
      List.map_map]
    exact (List.map_congr_left fun s _ => String.ofList_toList).trans (List.map_id _)

/-- Different names have different canonical forms. -/
theorem text_injective {n m : Name} (h : n.text = m.text) : n = m := by
  rw [← ofString_text n, h, ofString_text]

/-- Two names are the same exactly if their texts are. -/
theorem text_inj {n m : Name} : n.text = m.text ↔ n = m := ⟨text_injective, congrArg _⟩

/-! ## Order -/

/-- Names are ordered as their canonical forms are. -/
instance : Ord Name := ⟨fun n m => compare n.text m.text⟩

instance : Std.TransOrd Name where
  eq_swap {n m} := Std.OrientedOrd.eq_swap (a := n.text) (b := m.text)
  isLE_trans {n m l} := Std.TransOrd.isLE_trans (a := n.text) (b := m.text) (c := l.text)

instance : Std.LawfulEqOrd Name where
  compare_self {n} := Std.ReflOrd.compare_self (a := n.text)
  eq_of_compare {_ _} h := text_injective (Std.LawfulEqOrd.eq_of_compare h)

end Name

abbrev NameMap (β : Type) := Std.ExtTreeMap Name β compare

abbrev NameSet := Std.ExtTreeSet Name compare

end AdaptiveRouting
