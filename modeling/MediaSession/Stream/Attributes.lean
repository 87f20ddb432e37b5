import MediaSession.Datum.Record

namespace MediaSession

/-- Stores a value under its key in a list kept in increasing order of the keys. -/
def putSorted (key value : String) : List (String × String) → List (String × String)
  | [] => [(key, value)]
  | (k, v) :: rest =>
    if key < k then (key, value) :: (k, v) :: rest
    else if k < key then (k, v) :: putSorted key value rest
    else (key, value) :: rest

theorem mem_putSorted {key value : String} {p : String × String} {entries : List (String × String)}
    (h : p ∈ putSorted key value entries) : p = (key, value) ∨ p ∈ entries := by
  induction entries with
  | nil => simpa [putSorted] using h
  | cons entry rest ih =>
    obtain ⟨k, v⟩ := entry
    simp only [putSorted] at h
    split at h
    · simpa using h
    · split at h
      · rcases List.mem_cons.mp h with h | h
        · exact Or.inr (by simp [h])
        · exact (ih h).imp_right (List.mem_cons_of_mem _)
      · rcases List.mem_cons.mp h with h | h
        · exact Or.inl h
        · exact Or.inr (List.mem_cons_of_mem _ h)

theorem putSorted_sorted (key value : String) {entries : List (String × String)}
    (h : entries.Pairwise (·.1 < ·.1)) : (putSorted key value entries).Pairwise (·.1 < ·.1) := by
  induction entries with
  | nil => simp [putSorted]
  | cons entry rest ih =>
    obtain ⟨k, v⟩ := entry
    obtain ⟨hk, hrest⟩ := List.pairwise_cons.mp h
    simp only [putSorted]
    split
    next hlt =>
      refine List.pairwise_cons.mpr ⟨?_, h⟩
      intro p hp
      rcases List.mem_cons.mp hp with rfl | hp
      · exact hlt
      · exact String.lt_trans hlt (hk p hp)
    next hge =>
      split
      next hlt =>
        refine List.pairwise_cons.mpr ⟨?_, ih hrest⟩
        intro p hp
        rcases mem_putSorted hp with rfl | hp
        · exact hlt
        · exact hk p hp
      next hle =>
        have heq : k = key := String.le_antisymm (String.not_lt.mp hge) (String.not_lt.mp hle)
        subst heq
        exact List.pairwise_cons.mpr ⟨hk, hrest⟩

/-- Named texts, each name once, in the order of the names. -/
structure Attributes where
  entries : List (String × String) := []
  sorted : entries.Pairwise (·.1 < ·.1) := by exact List.Pairwise.nil

def Attributes.empty : Attributes := {}

instance : Inhabited Attributes := ⟨.empty⟩

def Attributes.insert (attributes : Attributes) (key value : String) : Attributes :=
  ⟨putSorted key value attributes.entries, putSorted_sorted key value attributes.sorted⟩

def Attributes.ofList (entries : List (String × String)) : Attributes :=
  entries.foldl (fun attributes entry => attributes.insert entry.1 entry.2) .empty

def Attributes.toDatum (attributes : Attributes) : Datum :=
  .record (attributes.entries.map fun entry => (entry.1, .text entry.2))

def Attributes.ofDatum? : Datum → Option Attributes
  | .record fields =>
    (fields.mapM fun (field : String × Datum) => field.2.text?.map (field.1, ·)).map ofList
  | _ => none

end MediaSession
