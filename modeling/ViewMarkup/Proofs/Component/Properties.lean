import ViewMarkup.Proofs.Component.Extension
import ViewMarkup.Proofs.Table

/-!
# The properties along a lineage

The table of a class is filled by walking its lineage from the most basic class to the class itself
and giving each declaration to the table in turn. So a later declaration replaces an earlier one at
its place. Seen from the front of the lineage, the first class that declares a name decides, and of
its own declarations of the name the last one; the names keep the order in which the walk first
came across them.

## Main results

* `Classes.get?_properties` — the table asks the lineage from the front and each class from its last
  declaration.
* `Classes.properties_declared` — which names a table has, what is under them and in which order,
  and that a class has the names of all that it builds on.
-/

namespace ViewMarkup

/-! ## What a class declares -/

/-- The properties that a class itself declares. -/
def ComponentClass.own (c : ComponentClass) : List Property := c.properties.getD []

namespace Classes

variable {cs : Classes} {id : ClassId} {name : String} {p : Property}

/-- The declarations along the lineage of a class, from the most basic class to the class itself. -/
def walk (cs : Classes) (id : ClassId) : List Property := (cs.lineage id).reverse.flatMap (·.own)

theorem properties_eq_ofList (cs : Classes) (id : ClassId) :
    cs.properties id = Table.ofList ((cs.walk id).map fun p => (p.name, p)) := by
  rw [properties, PropertyTable.ofLineage, ← List.map_reverse]
  rfl

/-- The names of a table in their order. -/
theorem keys_properties (cs : Classes) (id : ClassId) :
    (cs.properties id).keys = ((cs.walk id).map (·.name)).eraseDups := by
  have hKeys : Table.keys ((cs.walk id).map fun p => (p.name, p)) = (cs.walk id).map (·.name) := by
    simp [Table.keys]
  rw [properties_eq_ofList, Table.keys_ofList, hKeys]

private theorem mem_walk_iff : p ∈ cs.walk id ↔ ∃ c ∈ cs.lineage id, p ∈ c.own := by
  simp [walk]

/-- A table has the names that are declared somewhere along the lineage. -/
theorem mem_keys_properties_iff :
    name ∈ (cs.properties id).keys ↔ ∃ c ∈ cs.lineage id, ∃ p ∈ c.own, p.name = name := by
  rw [keys_properties, List.mem_eraseDups, List.mem_map]
  constructor
  · rintro ⟨p, hp, hName⟩
    obtain ⟨c, hc, hp⟩ := mem_walk_iff.1 hp
    exact ⟨c, hc, p, hp, hName⟩
  · rintro ⟨c, hc, p, hp, hName⟩
    exact ⟨p, mem_walk_iff.2 ⟨c, hc, hp⟩, hName⟩

/-- The lineage is asked from the front, and each class for its last declaration of the name. -/
theorem get?_properties (cs : Classes) (id : ClassId) (name : String) :
    (cs.properties id).get? name =
      cs.nearest? id fun c => c.own.reverse.find? (·.name = name) := by
  have hWalk : (cs.walk id).reverse = ((cs.lineage id).map fun c => c.own.reverse).flatten := by
    rw [walk, List.flatMap_def, List.reverse_flatten, List.map_map, List.map_reverse,
      List.reverse_reverse]
    rfl
  rw [properties_eq_ofList, Table.get?_ofList, ← List.map_reverse, List.find?_map, hWalk,
    Option.map_map, List.find?_flatten, List.findSome?_map]
  exact Option.map_id'

/-- A property is the last declaration of a name in the first class of a lineage that declares the
name. -/
def Decides (cs : Classes) (id : ClassId) (name : String) (p : Property) : Prop :=
  ∃ front c back before after, cs.lineage id = front ++ c :: back ∧
    (∀ d ∈ front, ∀ q ∈ d.own, q.name ≠ name) ∧
      c.own = before ++ p :: after ∧ p.name = name ∧ ∀ q ∈ after, q.name ≠ name

/-- The last declaration of a name among those of one class. -/
theorem find?_reverse_eq_some_iff {own : List Property} :
    own.reverse.find? (·.name = name) = some p ↔
      ∃ before after, own = before ++ p :: after ∧ p.name = name ∧
        ∀ q ∈ after, q.name ≠ name := by
  rw [List.find?_eq_some_iff_append]
  constructor
  · rintro ⟨hName, after, before, hOwn, hAfter⟩
    refine ⟨before.reverse, after.reverse, ?_, by simpa using hName, by simpa using hAfter⟩
    rw [← List.reverse_reverse own, hOwn]
    simp
  · rintro ⟨before, after, rfl, hName, hAfter⟩
    exact ⟨by simpa using hName, after.reverse, before.reverse, by simp, by simpa using hAfter⟩

private theorem get?_properties_eq_some_iff :
    (cs.properties id).get? name = some p ↔ cs.Decides id name p := by
  rw [get?_properties, nearest?, List.findSome?_eq_some_iff]
  constructor
  · rintro ⟨front, c, back, hLineage, hFind, hFront⟩
    obtain ⟨before, after, hOwn, hName, hAfter⟩ := find?_reverse_eq_some_iff.1 hFind
    exact ⟨front, c, back, before, after, hLineage, fun d hd => by simpa using hFront d hd,
      hOwn, hName, hAfter⟩
  · rintro ⟨front, c, back, before, after, hLineage, hFront, hOwn, hName, hAfter⟩
    exact ⟨front, c, back, hLineage,
      find?_reverse_eq_some_iff.2 ⟨before, after, hOwn, hName, hAfter⟩,
      fun d hd => by simpa using hFront d hd⟩

/-- A class has all classes in its lineage that those have which it builds on. -/
theorem Transitive.lineage_subset (h : cs.Transitive) {sub : ClassId}
    (hSub : cs.isA sub id = true) : cs.lineage id ⊆ cs.lineage sub := by
  rw [lineage_eq_filterMap, lineage_eq_filterMap]
  exact List.filterMap_subset _ (h sub id (isA_iff.1 hSub))

/-- A table has a name if and only if some class of the lineage declares it; what is under it is the
last declaration in the first such class; the names are there once each, in the order in which the
walk from the most basic class first comes across them; and a class that builds on the class has all
of its names. -/
theorem properties_declared (cs : Classes) (id : ClassId) :
    (∀ name, (cs.properties id).has name = true ↔
        ∃ c ∈ cs.lineage id, ∃ p ∈ c.own, p.name = name) ∧
      (∀ name p, (cs.properties id).get? name = some p ↔ cs.Decides id name p) ∧
      ((cs.properties id).keys.Nodup ∧
        (cs.properties id).keys = ((cs.walk id).map (·.name)).eraseDups) ∧
      (cs.Transitive → ∀ sub, cs.isA sub id = true →
        (cs.properties id).keys ⊆ (cs.properties sub).keys) := by
  refine ⟨fun name => ?_, fun name p => get?_properties_eq_some_iff, ⟨?_, keys_properties cs id⟩,
    fun hTransitive sub hSub name hName => ?_⟩
  · exact Table.has_iff_mem_keys.trans mem_keys_properties_iff
  · rw [properties_eq_ofList]
    exact Table.nodup_keys_ofList _
  · obtain ⟨c, hc, hOwn⟩ := mem_keys_properties_iff.1 hName
    exact mem_keys_properties_iff.2 ⟨c, hTransitive.lineage_subset hSub hc, hOwn⟩

/-- A number with a name of its own in the attributes. -/
def number (name target : String) : Property := { name, kind := .int, target }

/-- A frame, two classes that build on it, and a panel that builds on both. Either of the two
declares the width anew, one of them twice. -/
def panels : Classes where
  all := #[
    { name := "Frame", lineage := [0]
      properties := some [number "width" "w", number "depth" "d"] },
    { name := "Row", lineage := [1, 0],
      properties := some [number "gap" "g", number "width" "row", number "width" "row_width"] },
    { name := "Column", lineage := [2, 0],
      properties := some [number "width" "column", number "depth" "rows"] },
    { name := "Panel", lineage := [3, 1, 2, 0], properties := some [number "gap" "spacing"] }]

/-- The panel takes its width from the second declaration of the row, its depth from the column and
its gap from itself. The order is that of the frame with the gap of the row behind it, and no name
of the row is missing. -/
theorem properties_declared_panel :
    ((panels.properties 3).get? "width" = some (number "width" "row_width") ∧
        (panels.properties 3).get? "depth" = some (number "depth" "rows")) ∧
      (panels.properties 3).keys = ["width", "depth", "gap"] ∧
      (panels.properties 1).keys ⊆ (panels.properties 3).keys := by
  have hTransitive : panels.Transitive := transitive_of_forall_mem (by decide +kernel)
  obtain ⟨-, hDecides, ⟨-, hKeys⟩, -⟩ := properties_declared panels 3
  obtain ⟨-, -, -, hSub⟩ := properties_declared panels 1
  refine ⟨⟨?_, ?_⟩, hKeys.trans (by decide +kernel), hSub hTransitive 3 (by decide +kernel)⟩
  · exact (hDecides _ _).2 ⟨panels.lineage 3 |>.take 1, _, _,
      [number "gap" "g", number "width" "row"], [], rfl, by decide +kernel, rfl, rfl,
      by decide +kernel⟩
  · exact (hDecides _ _).2 ⟨panels.lineage 3 |>.take 2, _, _,
      [number "width" "column"], [], rfl, by decide +kernel, rfl, rfl, by decide +kernel⟩

end Classes
end ViewMarkup
