/-!
# Closed vocabularies

Some notions have a handful of values, each with a fixed key under which configuration files and
messages refer to it. `Keyed` lists the values of such a notion with their keys, and `Keyed.read`
looks a key up; a key that is not in the list is reported together with those that are.
-/

namespace AdaptiveRouting

/-- A notion with finitely many values that are referred to by keys. -/
class Keyed (τ : Type) where
  /-- The values in the order in which they are listed to a reader. -/
  all : List τ
  key : τ → String

/-- A key that names no value, with the keys that do. -/
structure UnknownKey where
  /-- The key that was read. -/
  found : String
  /-- The keys that would have been understood. -/
  expected : List String
deriving DecidableEq

def UnknownKey.quote (key : String) : String := "`" ++ key ++ "`"

def UnknownKey.message (e : UnknownKey) : String :=
  let offer :=
    match e.expected with
    | [a, b] => UnknownKey.quote a ++ " or " ++ UnknownKey.quote b
    | keys => "one of " ++ String.intercalate ", " (keys.map UnknownKey.quote)
  "unknown variant " ++ UnknownKey.quote e.found ++ ", expected " ++ offer

namespace Keyed

variable {τ : Type} [Keyed τ]

/-- The value with a given key, if there is one. -/
def find? (τ : Type) [Keyed τ] (key : String) : Option τ :=
  (Keyed.all (τ := τ)).find? fun v => Keyed.key v = key

/-- The value with a given key. -/
def read (τ : Type) [Keyed τ] (key : String) : Except UnknownKey τ :=
  match find? τ key with
  | some v => .ok v
  | none => .error ⟨key, (Keyed.all (τ := τ)).map Keyed.key⟩

end Keyed

/-! ## The vocabularies of routing -/

/-- Whether a neighbor takes part. -/
inductive LinkStatus where
  /-- It answers hellos. -/
  | active
  /-- It has been given up. -/
  | inactive
deriving DecidableEq, Inhabited

instance : Keyed LinkStatus where
  all := [.active, .inactive]
  key
    | .active => "active"
    | .inactive => "inactive"

/-- A status as reports show it. -/
def LinkStatus.text : LinkStatus → String
  | .active => "ACTIVE"
  | .inactive => "INACTIVE"

/-- What a router advertises to the others. -/
inductive AdvertisementKind where
  /-- The links to its neighbors. -/
  | adjacency
  /-- Its position in the hyperbolic plane. -/
  | coordinate
  /-- The names it serves. -/
  | name
deriving DecidableEq, Inhabited

instance : Keyed AdvertisementKind where
  all := [.adjacency, .coordinate, .name]
  key
    | .adjacency => "adjacency"
    | .coordinate => "coordinate"
    | .name => "name"

/-- What happened to an advertisement. -/
inductive ChangeKind where
  | installed
  /-- It replaces an earlier one. -/
  | updated
  | removed
deriving DecidableEq, Inhabited

instance : Keyed ChangeKind where
  all := [.installed, .updated, .removed]
  key
    | .installed => "installed"
    | .updated => "updated"
    | .removed => "removed"

/-- The use made of hyperbolic coordinates. -/
inductive HyperbolicMode where
  | off
  /-- Next hops are computed for comparison only. -/
  | dryRun
  /-- Next hops come from the coordinates. -/
  | on
deriving DecidableEq, Inhabited

instance : Keyed HyperbolicMode where
  all := [.off, .dryRun, .on]
  key
    | .off => "off"
    | .dryRun => "dry_run"
    | .on => "on"

/-- The use made of live costs. -/
inductive Algorithm where
  /-- Costs follow the round-trip time. -/
  | linkState
  /-- Costs account for load and jitter as well. -/
  | loadAware
  /-- Costs are predicted by a model that learns. -/
  | mlAdaptive
deriving DecidableEq, Inhabited

instance : Keyed Algorithm where
  all := [.linkState, .loadAware, .mlAdaptive]
  key
    | .linkState => "link_state"
    | .loadAware => "load_aware"
    | .mlAdaptive => "ml_adaptive"

/-- An algorithm as it is shown. -/
def Algorithm.text : Algorithm → String
  | .linkState => "link-state"
  | .loadAware => "load-aware"
  | .mlAdaptive => "ml-adaptive"

/-- A coarse judgement of a link. -/
inductive LinkQuality where
  /-- Steady and fast. -/
  | excellent
  /-- Mostly steady. -/
  | good
  | fair
  | poor
deriving DecidableEq, Inhabited

instance : Keyed LinkQuality where
  all := [.excellent, .good, .fair, .poor]
  key
    | .excellent => "excellent"
    | .good => "good"
    | .fair => "fair"
    | .poor => "poor"

end AdaptiveRouting
