import Mathlib.Data.List.Nodup
import ArtifactGate.SortedMap

/-!
Maps by their values. Maps are the same if they have the same values, so a map is what becomes of its entries when
they are inserted one after the other.
-/
namespace ArtifactGate.SortedMap

variable {κ ν : Type} [Ord κ] [Std.TransOrd κ] [Std.LawfulEqOrd κ] [BEq κ] [LawfulBEq κ]

/-- Maps are the same if they have the same values. -/
theorem eq_of_get? {first second : SortedMap κ ν} (same : ∀ key, first.get? key = second.get? key) :
    first = second := by
  have entries : first.entries = second.entries := by
    refine List.Perm.eq_of_pairwise ?_ first.sorted second.sorted
      ((List.perm_ext_iff_of_nodup (List.Nodup.of_map _ first.keys_nodup)
        (List.Nodup.of_map _ second.keys_nodup)).2 fun entry => ?_)
    · intro one other _ _ less more
      rw [Std.OrientedCmp.gt_iff_lt.2 less] at more
      cases more
    · rw [← get?_eq_some, ← get?_eq_some, same]
  cases first
  cases second
  cases entries
  rfl

theorem get?_insert [DecidableEq κ] (map : SortedMap κ ν) (key other : κ) (value : ν) :
    (map.insert key value).get? other = if other = key then some value else map.get? other := by
  split
  · rename_i same
    rw [same, get?_insert_self]
  · exact get?_insert_of_ne map ‹_› value

theorem ofList_entries (map : SortedMap κ ν) : ofList map.entries = map :=
  eq_of_get? map.get?_insertAll_empty

end ArtifactGate.SortedMap
