import RowAccess.Condition.Predicate
import RowAccess.Proofs.Text.Split

/-!
# Segments of field paths

A path is split at doubled underscores, so a name without one is its own only segment, and a path
joined from such names splits into them again as long as no earlier name could lend an underscore
to the separator behind it. Every path has a first segment, its root, and what follows it is a path
of the same segments.
-/

namespace RowAccess

/-- A name that stands for itself in a path: no doubled underscore splits it. -/
def IsSegment (name : String) : Prop := ¬['_', '_'] <:+: name.toList

theorem pathSegments_eq_cons (path : String) :
    ∃ rest, pathSegments path = pathRoot path :: rest := by
  have hne : pathSegments path ≠ [] := fun h ↦
    Text.splitOnDouble_ne_nil '_' path.toList (List.map_eq_nil_iff.mp h)
  obtain ⟨first, rest, h⟩ := List.exists_cons_of_ne_nil hne
  exact ⟨rest, by rw [pathRoot, h, List.headD_cons]⟩

theorem Condition.segments_eq_cons (c : Condition) :
    ∃ rest, pathSegments c.path = c.root :: rest :=
  pathSegments_eq_cons c.path

theorem pathSegments_eq_singleton {name : String} (h : IsSegment name) :
    pathSegments name = [name] := by
  rw [pathSegments, Text.splitOnDouble_eq_singleton h, List.map_singleton, String.ofList_toList]

theorem isSegment_of_pathSegments {name segment : String} (h : pathSegments name = [segment]) :
    IsSegment name := by
  rw [pathSegments, List.map_eq_singleton_iff] at h
  obtain ⟨piece, hpiece, -⟩ := h
  exact Text.not_isInfix_of_splitOnDouble hpiece

theorem toList_joinPath_pair (relation path : String) :
    (joinPath [relation, path]).toList = relation.toList ++ '_' :: '_' :: path.toList := by
  simp [joinPath]

theorem pathSegments_joinPath {relation : String} (h : IsSegment relation)
    (hlast : relation.toList.getLast? ≠ some '_') (path : String) :
    pathSegments (joinPath [relation, path]) = relation :: pathSegments path := by
  rw [pathSegments, toList_joinPath_pair, Text.splitOnDouble_append h hlast, List.map_cons,
    String.ofList_toList, pathSegments]

theorem joinPath_pathSegments (path : String) : joinPath (pathSegments path) = path := by
  rw [← String.toList_inj, joinPath, String.toList_intercalate, pathSegments, List.map_map]
  have hid : String.toList ∘ String.ofList = id := funext fun cs ↦ String.toList_ofList
  rw [hid, List.map_id]
  exact Text.intercalate_splitOnDouble '_' path.toList

/-- What follows the first segment of a path, joined to a path again, has the same segments. -/
theorem pathSegments_joinPath_rest {path first next : String} {rest : List String}
    (h : pathSegments path = first :: next :: rest) :
    pathSegments (joinPath (next :: rest)) = next :: rest := by
  obtain ⟨piece, pieces, hpieces, -, hrest⟩ := List.map_eq_cons_iff.mp h
  obtain ⟨piece', pieces', rfl, -, -⟩ := List.map_eq_cons_iff.mp hrest
  obtain ⟨tail, htail⟩ := Text.exists_splitOnDouble_eq_of_cons_cons hpieces
  have hsegments : pathSegments (String.ofList tail) = next :: rest := by
    rw [pathSegments, String.toList_ofList, htail, hrest]
  rw [← hsegments, joinPath_pathSegments]

end RowAccess
