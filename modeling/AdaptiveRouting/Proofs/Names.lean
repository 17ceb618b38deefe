import AdaptiveRouting.Proofs.Probe.ProbeNames
import AdaptiveRouting.Proofs.Probe.SelfDelimitingFrames
import AdaptiveRouting.Proofs.Settings.RoundTrip

/-!
# Names as paths

A name is the list of its components, and its text says as much as the list does
(`Name.names_are_paths`). The components of a text are what `splitOn` finds between its slashes
(`componentsIn`), and the text of components has a slash in front of each of them (`pathText`); the
root alone is spelled in another way. So each operation on names could as well cut texts at their
slashes and join the pieces of the result.

Two facts carry this. Cutting undoes joining as long as no piece is empty
(`componentsIn_intercalate`), and a slash keeps apart what stands on both sides of it
(`componentsIn_append_slash`). The second one is also why a name lies below another one only if its
text has a slash where the text of the other one ends (`Name.isAncestorOf_iff_text`).
-/

namespace AdaptiveRouting

/-! ## Between slashes -/

/-- What stands between the slashes of a text and is not empty. -/
def componentsIn (s : String) : List String :=
  ((s.toList.splitOn '/').map String.ofList).filter (· ≠ "")

/-- Components with a slash in front of each, and a lone slash if there are none. -/
def pathText (cs : List String) : String := if cs = [] then "/" else "/" ++ "/".intercalate cs

/-- What stands in front of a slash and what stands behind it do not mix. -/
theorem componentsIn_append_slash (s t : String) :
    componentsIn (s ++ "/" ++ t) = componentsIn s ++ componentsIn t := by
  have htext : (s ++ "/" ++ t).toList = s.toList ++ '/' :: t.toList := by simp
  rw [componentsIn, htext, List.splitOn_append_cons_self, List.map_append, List.filter_append]
  rfl

/-- Pieces without slashes are found again, unless they are empty. -/
theorem componentsIn_intercalate {pieces : List String}
    (h : ∀ piece ∈ pieces, '/' ∉ piece.toList) :
    componentsIn ("/".intercalate pieces) = pieces.filter (· ≠ "") := by
  cases pieces with
  | nil => decide +kernel
  | cons piece pieces =>
    have hcut : ("/".intercalate (piece :: pieces)).toList.splitOn '/' =
        (piece :: pieces).map String.toList := by
      rw [String.toList_intercalate]
      exact List.splitOn_intercalate '/' (by simpa using h) (by simp)
    rw [componentsIn, hcut]
    simp

namespace Name

/-! ## The text of a name -/

/-- A name that is read has the components of its text. -/
theorem components_ofString_eq (s : String) : (ofString s).components = componentsIn s := by
  have hempty : ∀ piece : List Char, decide (String.ofList piece ≠ "") = decide (piece ≠ []) := by
    simp
  simp only [ofString, pathPieces, cutAtSlashes_eq_splitOn, componentsIn, List.filter_map,
    Function.comp_def, hempty]

/-- The components of a name can be read off its text. -/
theorem componentsIn_text (n : Name) : componentsIn n.text = n.components := by
  rw [← components_ofString_eq, ofString_text]

/-- The text of a name is the path of its components. -/
theorem text_eq_pathText (n : Name) : n.text = pathText n.components := by
  unfold text pathText
  split
  · rfl
  · next hne =>
    apply String.toList_inj.1
    rw [String.toList_ofList, joined, flatMap_cons_eq_intercalate '/' hne]
    simp

/-! ## Below a name and above it -/

/-- A slash between two texts appends the second to the name of the first. -/
theorem ofString_append_slash (s t : String) :
    ofString (s ++ "/" ++ t) = (ofString s).append t := by
  apply ext
  simp only [components_append_ofString, components_ofString_eq, componentsIn_append_slash]

/-- What is appended in two steps can be appended at once, with a slash in between. -/
theorem append_append (n : Name) (s t : String) :
    (n.append s).append t = n.append (s ++ "/" ++ t) := by
  apply ext
  simp only [components_append_ofString, ofString_append_slash, List.append_assoc]

/-- Appending is associative. -/
theorem append_text_append (n : Name) (s t : String) :
    n.append ((ofString s).append t).text = (n.append s).append t := by
  rw [append_append]
  apply ext
  rw [components_append_ofString, components_append_ofString, ofString_text, ofString_append_slash]

/-- Dropping what has been appended leads back. -/
theorem dropLast_append (n : Name) (s : String) :
    (n.append s).dropLast (ofString s).length = n :=
  ext (ProbeName.components_dropLast (components_append_ofString n s) rfl)

/-- The last components are dropped, as many as asked for if there are as many. -/
theorem exists_dropped (n : Name) (k : Nat) :
    ∃ dropped, n.components = (n.dropLast k).components ++ dropped ∧
      dropped.length = min k n.length := by
  refine ⟨n.components.drop (n.length - k), (List.take_append_drop _ _).symm, ?_⟩
  rw [List.length_drop, ← length]
  omega

/-- Names are partially ordered by being ancestors. -/
theorem isPartialOrder_isAncestorOf :
    IsPartialOrder Name (fun n m => n.isAncestorOf m = true) where
  refl _ := isAncestorOf_iff.2 List.prefix_rfl
  trans _ _ _ hnm hml :=
    isAncestorOf_iff.2 ((isAncestorOf_iff.1 hnm).trans (isAncestorOf_iff.1 hml))
  antisymm _ _ hnm hmn := ext (antisymm (isAncestorOf_iff.1 hnm) (isAncestorOf_iff.1 hmn))

/-- Names that part at a component have nothing below them in common, even if one of the two
components begins with the other. -/
theorem isAncestorOf_append_iff (n : Name) {c d : String} (hc : IsComponent c) (hd : IsComponent d)
    (t : String) : (n.append c).isAncestorOf ((n.append d).append t) = true ↔ c = d := by
  rw [isAncestorOf_iff, components_append_ofString (n.append d), components_append n hc,
    components_append n hd, List.append_assoc, List.prefix_append_right_inj]
  simp [List.cons_prefix_cons]

/-- A name lies below another one if its text begins with the text of the other one and goes on with
a slash, or ends there. -/
theorem isAncestorOf_iff_text {n m : Name} :
    n.isAncestorOf m = true ↔ n = root ∨ ∃ rest, n.text ++ "/" ++ rest = m.text ++ "/" := by
  rw [isAncestorOf_iff]
  constructor
  · rintro ⟨below, hm⟩
    by_cases hn : n.components = []
    · exact .inl (ext hn)
    -- The root has no slash behind it, and a name that is not longer than the other ends where it
    -- does.
    by_cases hbelow : below = []
    · subst hbelow
      obtain rfl : n = m := ext ((List.append_nil _).symm.trans hm)
      exact .inr ⟨"", String.append_empty⟩
    · refine .inr ⟨"/".intercalate below ++ "/", ?_⟩
      have hne : n.components ++ below ≠ [] := List.append_ne_nil_of_left_ne_nil hn below
      rw [text_eq_pathText, text_eq_pathText, ← hm, pathText, pathText, if_neg hn, if_neg hne,
        String.intercalate_append_of_ne_nil hn hbelow]
      simp only [String.append_assoc]
  · rintro (rfl | ⟨rest, htext⟩)
    · exact List.nil_prefix
    · -- the slash behind the text of `n` keeps its components together
      have hpieces := congrArg componentsIn htext
      have hend : componentsIn (m.text ++ "/") = componentsIn m.text := by
        rw [← String.append_empty (s := m.text ++ "/"), componentsIn_append_slash]
        exact List.append_nil _
      rw [componentsIn_append_slash, hend, componentsIn_text, componentsIn_text] at hpieces
      exact ⟨componentsIn rest, hpieces⟩

/-! ## Operations on texts

The text of what an operation gives is what comes of cutting the texts that it is applied to, doing
the same to the lists of their components, and joining the result. -/

/-- Reading a text and writing it again leaves one slash before each component. -/
theorem text_ofString (s : String) : (ofString s).text = pathText (componentsIn s) := by
  rw [text_eq_pathText, components_ofString_eq]

/-- Appending a text appends its components to the path. -/
theorem text_append (n : Name) (s : String) :
    (n.append s).text = pathText (componentsIn n.text ++ componentsIn s) := by
  rw [text_eq_pathText, components_append_ofString, componentsIn_text, components_ofString_eq]

/-- Dropping components drops them from the end of the path. -/
theorem text_dropLast (n : Name) (k : Nat) : (n.dropLast k).text =
    pathText ((componentsIn n.text).take ((componentsIn n.text).length - k)) := by
  rw [text_eq_pathText, componentsIn_text]
  rfl

/-- A name is an ancestor exactly if its components are a prefix of the other's. -/
theorem isAncestorOf_eq (n m : Name) :
    n.isAncestorOf m = (componentsIn n.text).isPrefixOf (componentsIn m.text) := by
  rw [componentsIn_text, componentsIn_text]
  rfl

end Name

/-! ## Names in documents -/

/-- The standard configuration of a router of that name. -/
def Settings.ofRouter (n : Name) : Settings Float :=
  { Settings.standard with routing := { RoutingSettings.standard with router := n } }

/-- The table that says what the router is called, and nothing else. -/
def routerTable (s : String) : String × SettingFields := ("routing", [("router_name", .text s)])

/-- The table can be written. -/
theorem writableTable_routerTable (s : String) : WritableTable (routerTable s) where
  name := (by decide : Document.IsBareKey "routing")
  keys := (by decide : AreBareKeys ["router_name"])
  fits := by simp [routerTable, SettingValue.Fits]

/-- The standard settings are valid for a router of any name. -/
theorem Settings.violation?_ofRouter (n : Name) : (ofRouter n).violation? = none := by
  have hstandard : (standard : Settings Float).violation? = none := by rfl
  exact hstandard

/-- A configuration that names the router only is read as the standard one for this router. -/
theorem Settings.parse_routerTable (s : String) :
    parse (String.ofList (settingTable (routerTable s))) = .ok (ofRouter (.ofString s)) := by
  have hread : Document.read? (String.ofList (settingTable (routerTable s))) =
      some [("routing", .table .stated [("router_name", .text s)])] := by
    have hgroups : ∀ group ∈ [routerTable s], WritableTable group := by
      simp [writableTable_routerTable]
    have hnames : ([routerTable s].map (·.1)).Nodup := List.nodup_singleton _
    have htables := read?_tables hnames hgroups
    rwa [List.map_singleton, List.intercalate_singleton] at htables
  have hdecode : decode? [("routing", .table .stated [("router_name", .text s)])] =
      some (ofRouter (.ofString s)) := by rfl
  simp only [parse, hread, Option.bind_some, hdecode, violation?_ofRouter]

namespace Name

/-! ## Names and their components -/

/-- **A name is the list of its components.** Reading a text finds what stands between its slashes
and is not empty, however the slashes are placed; a name is read back from its text, and has the
same text or the same components as another one only if it is the same name. Appending a text
appends its components: it is undone by dropping as many, and it makes no difference whether two
texts are appended one after the other or at once. What is dropped are the last components, as many
as asked for if there are as many. Whether a name lies above another one is a partial order, the one
of their lists of components, and so it never mistakes a component for one that begins with it. All
of this can be read off the texts that names are written as. A name that is written into a document
or into a frame is found there again. -/
theorem names_are_paths (n m : Name) (s t u : String) (k : Nat) :
    ((ofString s).components = componentsIn s ∧ (ofString s).text = pathText (componentsIn s) ∧
      ∀ pieces : List String, (∀ piece ∈ pieces, '/' ∉ piece.toList) →
        (ofString ("/".intercalate pieces)).components = pieces.filter (· ≠ "")) ∧
    (ofString n.text = n ∧ (n = m ↔ n.text = m.text) ∧ (n = m ↔ n.components = m.components)) ∧
    ((n.append t).components = n.components ++ (ofString t).components ∧
      (n.append t).text = pathText (componentsIn n.text ++ componentsIn t) ∧
      (n.append t).dropLast (ofString t).length = n ∧
      (n.append t).append u = n.append (t ++ "/" ++ u) ∧
      n.append ((ofString t).append u).text = (n.append t).append u) ∧
    ((∃ dropped, n.components = (n.dropLast k).components ++ dropped ∧
        dropped.length = min k n.length) ∧
      (n.dropLast k).text =
        pathText ((componentsIn n.text).take ((componentsIn n.text).length - k))) ∧
    ((n.isAncestorOf m = true ↔ n.components <+: m.components) ∧
      n.isAncestorOf m = (componentsIn n.text).isPrefixOf (componentsIn m.text) ∧
      IsPartialOrder Name (fun n m => n.isAncestorOf m = true) ∧
      (n.isAncestorOf m = true ↔ n = root ∨ ∃ rest, n.text ++ "/" ++ rest = m.text ++ "/") ∧
      ∀ c d : String, IsComponent c → IsComponent d →
        ((n.append c).isAncestorOf ((n.append d).append t) = true ↔ c = d)) ∧
    Settings.parse (String.ofList (settingTable (routerTable n.text))) = .ok (.ofRouter n) ∧
    ((Utf8.encode n.text.toList).length < 256 ^ 8 → ∀ rest : List UInt8,
      Frame.readName (Frame.textBytes n.text ++ rest) = .ok (n, rest)) := by
  have hpieces : ∀ pieces : List String, (∀ piece ∈ pieces, '/' ∉ piece.toList) →
      (ofString ("/".intercalate pieces)).components = pieces.filter (· ≠ "") := by
    intro pieces hpieces
    rw [components_ofString_eq, componentsIn_intercalate hpieces]
  have hdocument := Settings.parse_routerTable n.text
  rw [ofString_text] at hdocument
  refine ⟨⟨components_ofString_eq s, text_ofString s, hpieces⟩,
    ⟨ofString_text n, text_inj.symm, congrArg _, ext⟩,
    ⟨components_append_ofString n t, text_append n t, dropLast_append n t, append_append n t u,
      append_text_append n t u⟩,
    ⟨exists_dropped n k, text_dropLast n k⟩,
    ⟨isAncestorOf_iff, isAncestorOf_eq n m, isPartialOrder_isAncestorOf, isAncestorOf_iff_text, ?_⟩,
    hdocument, fun hlength => (Frame.delimits_name hlength).reads⟩
  intro c d hc hd
  exact isAncestorOf_append_iff n hc hd t

/-- A path with needless slashes, two names of which the text of one begins with that of the other,
and a name in a frame. -/
theorem site_is_path :
    (∀ piece ∈ ["ndn", "", "site", "router", ""], '/' ∉ piece.toList) ∧
    (ofString "ndn//site/router/").components = ["ndn", "site", "router"] ∧
    IsComponent "rout" ∧ IsComponent "router" ∧
    ((ofString "/ndn/site").append "rout").isAncestorOf
      (((ofString "/ndn/site").append "router").append "link-cost") = false ∧
    (Utf8.encode (ofString "/ndn/site").text.toList).length < 256 ^ 8 ∧
    Frame.readName (Frame.textBytes (ofString "/ndn/site").text ++ [9]) =
      .ok (ofString "/ndn/site", [9]) := by
  have hpieces : ∀ piece ∈ ["ndn", "", "site", "router", ""], '/' ∉ piece.toList := by decide
  have hshort : IsComponent "rout" := by decide
  have hlong : IsComponent "router" := by decide
  have hlength : (Utf8.encode (ofString "/ndn/site").text.toList).length < 256 ^ 8 := by
    decide +kernel
  obtain ⟨⟨-, -, hread⟩, -, -, -, ⟨-, -, -, -, hparts⟩, -, hframe⟩ :=
    names_are_paths (ofString "/ndn/site") .root "" "link-cost" "" 0
  refine ⟨hpieces, hread _ hpieces, hshort, hlong, ?_, hlength, hframe hlength [9]⟩
  exact Bool.eq_false_iff.2 fun habove => absurd ((hparts _ _ hshort hlong).1 habove) (by decide)

end Name

end AdaptiveRouting
