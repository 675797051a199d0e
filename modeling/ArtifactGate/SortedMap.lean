/-!
Finite maps as lists of entries in ascending order of their keys. A key occurs once; inserting it
again replaces its value. The list of entries is the meaning of a map: two maps with the same entries
are equal.
-/
namespace ArtifactGate

structure SortedMap (κ ν : Type) [Ord κ] where
  entries : List (κ × ν)
  sorted : entries.Pairwise fun earlier later => compare earlier.1 later.1 = .lt := by exact .nil
  deriving DecidableEq, Repr

namespace SortedMap

variable {κ ν : Type} [Ord κ]

def empty : SortedMap κ ν := ⟨[], .nil⟩

instance : Inhabited (SortedMap κ ν) := ⟨empty⟩

def insertEntry (key : κ) (value : ν) : List (κ × ν) → List (κ × ν)
  | [] => [(key, value)]
  | (k, v) :: rest =>
    match compare key k with
    | .lt => (key, value) :: (k, v) :: rest
    | .eq => (key, value) :: rest
    | .gt => (k, v) :: insertEntry key value rest

theorem mem_insertEntry {key : κ} {value : ν} {entries : List (κ × ν)} {entry : κ × ν}
    (member : entry ∈ insertEntry key value entries) : entry = (key, value) ∨ entry ∈ entries := by
  induction entries with
  | nil => exact .inl (List.mem_singleton.1 member)
  | cons first rest ih =>
      obtain ⟨k, v⟩ := first
      simp only [insertEntry] at member
      split at member <;> simp only [List.mem_cons] at member ⊢
      · exact member
      · exact member.imp_right .inr
      · rcases member with same | member
        · exact .inr (.inl same)
        · exact (ih member).imp_right .inr

theorem insertEntry_sorted [Std.TransOrd κ] (key : κ) (value : ν) {entries : List (κ × ν)}
    (sorted : entries.Pairwise fun earlier later => compare earlier.1 later.1 = .lt) :
    (insertEntry key value entries).Pairwise fun earlier later =>
      compare earlier.1 later.1 = .lt := by
  induction entries with
  | nil => exact List.pairwise_singleton _ _
  | cons first rest ih =>
      obtain ⟨k, v⟩ := first
      obtain ⟨first_lt, rest_sorted⟩ := List.pairwise_cons.1 sorted
      simp only [insertEntry]
      split <;> rename_i order
      · refine List.pairwise_cons.2 ⟨fun entry member => ?_, sorted⟩
        rcases List.mem_cons.1 member with rfl | member
        · exact order
        · exact Std.TransCmp.lt_trans order (first_lt entry member)
      · exact List.pairwise_cons.2
          ⟨fun entry member => Std.TransCmp.lt_of_eq_of_lt order (first_lt entry member),
            rest_sorted⟩
      · refine List.pairwise_cons.2 ⟨fun entry member => ?_, ih rest_sorted⟩
        rcases mem_insertEntry member with rfl | member
        · exact Std.OrientedCmp.gt_iff_lt.1 order
        · exact first_lt entry member

def insert [Std.TransOrd κ] (map : SortedMap κ ν) (key : κ) (value : ν) : SortedMap κ ν :=
  ⟨insertEntry key value map.entries, insertEntry_sorted key value map.sorted⟩

def get? [BEq κ] (map : SortedMap κ ν) (key : κ) : Option ν :=
  map.entries.lookup key

def contains [BEq κ] (map : SortedMap κ ν) (key : κ) : Bool :=
  (map.get? key).isSome

def keys (map : SortedMap κ ν) : List κ :=
  map.entries.map Prod.fst

/-- Inserts entries one after the other, so the last of several for one key stays. -/
def insertAll [Std.TransOrd κ] (map : SortedMap κ ν) (entries : List (κ × ν)) : SortedMap κ ν :=
  entries.foldl (fun map entry => map.insert entry.1 entry.2) map

def ofList [Std.TransOrd κ] (entries : List (κ × ν)) : SortedMap κ ν :=
  empty.insertAll entries

section Lookup

variable [Std.TransOrd κ] [Std.LawfulEqOrd κ] [BEq κ] [LawfulBEq κ]

omit [Std.TransOrd κ] in
theorem get?_eq_some {map : SortedMap κ ν} {key : κ} {value : ν} :
    map.get? key = some value ↔ (key, value) ∈ map.entries := by
  obtain ⟨entries, sorted⟩ := map
  simp only [get?]
  induction entries with
  | nil => simp
  | cons first rest ih =>
      obtain ⟨k, v⟩ := first
      obtain ⟨first_lt, rest_sorted⟩ := List.pairwise_cons.1 sorted
      rw [List.lookup_cons, List.mem_cons]
      split <;> rename_i same
      · obtain rfl := eq_of_beq same
        constructor
        · intro found
          exact .inl (by rw [Option.some.inj found])
        · rintro (found | found)
          · rw [(Prod.mk.inj found).2]
          · have order := first_lt _ found
            rw [Std.LawfulEqOrd.compare_eq_iff_eq.2 rfl] at order
            cases order
      · rw [ih rest_sorted]
        constructor
        · exact .inr
        · rintro (found | found)
          · rw [(Prod.mk.inj found).1, beq_self_eq_true] at same
            cases same
          · exact found

omit [Std.TransOrd κ] [BEq κ] [LawfulBEq κ] in
theorem keys_nodup (map : SortedMap κ ν) : map.keys.Nodup := by
  refine List.pairwise_map.2 (map.sorted.imp fun order same => ?_)
  rw [same, Std.LawfulEqOrd.compare_eq_iff_eq.2 rfl] at order
  cases order

omit [Std.TransOrd κ] in
theorem lookup_insertEntry_self (key : κ) (value : ν) (entries : List (κ × ν)) :
    (insertEntry key value entries).lookup key = some value := by
  induction entries with
  | nil => exact List.lookup_cons_self
  | cons first rest ih =>
      obtain ⟨k, v⟩ := first
      simp only [insertEntry]
      split <;> rename_i order
      · exact List.lookup_cons_self
      · exact List.lookup_cons_self
      · have other : (key == k) = false := by
          refine beq_eq_false_iff_ne.2 fun same => ?_
          rw [same, Std.LawfulEqOrd.compare_eq_iff_eq.2 rfl] at order
          cases order
        rw [List.lookup_cons, other]
        exact ih

omit [Std.TransOrd κ] in
theorem lookup_insertEntry_of_ne {key other : κ} (differs : other ≠ key) (value : ν)
    (entries : List (κ × ν)) :
    (insertEntry key value entries).lookup other = entries.lookup other := by
  have unequal : (other == key) = false := beq_eq_false_iff_ne.2 differs
  induction entries with
  | nil => rw [insertEntry, List.lookup_cons, unequal]
  | cons first rest ih =>
      obtain ⟨k, v⟩ := first
      simp only [insertEntry]
      split <;> rename_i order
      · rw [List.lookup_cons, unequal]
      · obtain rfl := Std.LawfulEqOrd.compare_eq_iff_eq.1 order
        simp only [List.lookup_cons, unequal]
      · simp only [List.lookup_cons, ih]

theorem get?_insert_self (map : SortedMap κ ν) (key : κ) (value : ν) :
    (map.insert key value).get? key = some value :=
  lookup_insertEntry_self key value map.entries

theorem get?_insert_of_ne (map : SortedMap κ ν) {key other : κ} (differs : other ≠ key) (value : ν) :
    (map.insert key value).get? other = map.get? other :=
  lookup_insertEntry_of_ne differs value map.entries

/-- Entries with different keys, inserted one after the other, stand before those of the map. -/
theorem get?_insertAll {entries : List (κ × ν)} (distinct : (entries.map Prod.fst).Nodup) (map : SortedMap κ ν)
    (key : κ) : (map.insertAll entries).get? key = (entries.lookup key).or (map.get? key) := by
  induction entries generalizing map with
  | nil => rfl
  | cons first rest ih =>
      obtain ⟨k, v⟩ := first
      obtain ⟨new, distinct⟩ := List.nodup_cons.1 distinct
      rw [insertAll, List.foldl_cons, ← insertAll, ih distinct, List.lookup_cons]
      cases same : key == k with
      | false => rw [map.get?_insert_of_ne (ne_of_beq_false same)]
      | true =>
          obtain rfl := eq_of_beq same
          have absent : rest.lookup key = none := by
            refine List.lookup_eq_none_iff.2 fun entry member => ?_
            exact bne_iff_ne.2 fun equal => new (List.mem_map.2 ⟨entry, member, equal.symm⟩)
          rw [absent, get?_insert_self]
          rfl

theorem get?_insertAll_empty (map : SortedMap κ ν) (key : κ) :
    ((empty : SortedMap κ ν).insertAll map.entries).get? key = map.get? key := by
  rw [get?_insertAll map.keys_nodup]
  exact Option.or_none

end Lookup

end SortedMap

end ArtifactGate
