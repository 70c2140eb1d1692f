/-!
# Tables

A table holds one value for each of finitely many keys. Its view is `get?`: each operation is
pinned down by what it does to the value found under a key.
-/

namespace QuotaGate

/-- A finite map that remembers the order in which its keys came. -/
structure Table (κ ν : Type) [DecidableEq κ] where
  entries : List (κ × ν)
  nodup_keys : (entries.map Prod.fst).Nodup

namespace Table

variable {κ ν : Type} [DecidableEq κ]

def empty : Table κ ν := ⟨[], List.nodup_nil⟩

/-- The keys, in the order in which they came. -/
def keys (table : Table κ ν) : List κ := table.entries.map Prod.fst

def size (table : Table κ ν) : Nat := table.entries.length

def get? (table : Table κ ν) (key : κ) : Option ν := table.entries.lookup key

/-- Replaces the value under a key in place, or appends it. -/
def putEntry (key : κ) (value : ν) : List (κ × ν) → List (κ × ν)
  | [] => [(key, value)]
  | (other, held) :: rest =>
    if other = key then (key, value) :: rest else (other, held) :: putEntry key value rest

theorem map_fst_putEntry (key : κ) (value : ν) (entries : List (κ × ν)) :
    (putEntry key value entries).map Prod.fst =
      if key ∈ entries.map Prod.fst then entries.map Prod.fst
      else entries.map Prod.fst ++ [key] := by
  induction entries with
  | nil => simp [putEntry]
  | cons entry rest ih =>
    obtain ⟨other, held⟩ := entry
    by_cases same : other = key
    · simp [putEntry, same]
    · have different : key ≠ other := fun equal => same equal.symm
      simp only [putEntry, same, if_false, List.map_cons, ih, List.mem_cons, different, false_or]
      split <;> simp

/-- Puts a value under a key; a value held there gives way. -/
def put (table : Table κ ν) (key : κ) (value : ν) : Table κ ν where
  entries := putEntry key value table.entries
  nodup_keys := by
    rw [map_fst_putEntry]
    split
    · exact table.nodup_keys
    · next absent =>
      rw [List.nodup_append]
      refine ⟨table.nodup_keys, by simp, ?_⟩
      intro other member last equal
      rw [List.mem_singleton] at equal
      intro same
      exact absent (equal ▸ same ▸ member)

/-- Keeps the entries that a test accepts. -/
def retain (table : Table κ ν) (keep : κ → ν → Bool) : Table κ ν where
  entries := table.entries.filter fun entry => keep entry.1 entry.2
  nodup_keys := table.nodup_keys.sublist (List.filter_sublist.map _)

@[simp] theorem get?_empty (key : κ) : (empty : Table κ ν).get? key = none := rfl

theorem lookup_cons (wanted other : κ) (held : ν) (rest : List (κ × ν)) :
    ((other, held) :: rest).lookup wanted =
      if wanted = other then some held else rest.lookup wanted := by
  by_cases found : wanted = other
  · simp [found]
  · simp [List.lookup_cons, beq_eq_false_iff_ne.2 found, found]

theorem lookup_putEntry (key : κ) (value : ν) (entries : List (κ × ν)) (wanted : κ) :
    (putEntry key value entries).lookup wanted =
      if wanted = key then some value else entries.lookup wanted := by
  induction entries with
  | nil => exact lookup_cons wanted key value []
  | cons entry rest ih =>
    obtain ⟨other, held⟩ := entry
    by_cases same : other = key
    · subst same
      by_cases found : wanted = other <;> simp [putEntry, lookup_cons, found]
    · rw [putEntry, if_neg same, lookup_cons, lookup_cons, ih]
      by_cases found : wanted = other
      · subst found
        simp [same]
      · simp [found]

/-- After putting, the key holds the new value and every other key what it held before. -/
theorem get?_put (table : Table κ ν) (key : κ) (value : ν) (wanted : κ) :
    (table.put key value).get? wanted = if wanted = key then some value else table.get? wanted :=
  lookup_putEntry key value table.entries wanted

theorem lookup_eq_none_of_notMem {entries : List (κ × ν)} {key : κ}
    (absent : key ∉ entries.map Prod.fst) : entries.lookup key = none := by
  induction entries with
  | nil => rfl
  | cons entry rest ih =>
    simp only [List.map_cons, List.mem_cons, not_or] at absent
    rw [lookup_cons, if_neg absent.1, ih absent.2]

theorem lookup_filter {entries : List (κ × ν)} (nodup : (entries.map Prod.fst).Nodup)
    (keep : κ → ν → Bool) (key : κ) :
    (entries.filter fun entry => keep entry.1 entry.2).lookup key =
      (entries.lookup key).filter (keep key) := by
  induction entries with
  | nil => rfl
  | cons entry rest ih =>
    obtain ⟨other, held⟩ := entry
    simp only [List.map_cons, List.nodup_cons] at nodup
    by_cases same : key = other
    · subst same
      have restNone : rest.lookup key = none := lookup_eq_none_of_notMem nodup.1
      cases kept : keep key held <;>
        simp [kept, ih nodup.2, restNone, Option.filter]
    · cases kept : keep other held <;> simp [kept, lookup_cons, same, ih nodup.2]

/-- After retaining, a key holds what it held before if the test accepts it. -/
theorem get?_retain (table : Table κ ν) (keep : κ → ν → Bool) (key : κ) :
    (table.retain keep).get? key = (table.get? key).filter (keep key) :=
  lookup_filter table.nodup_keys keep key

/-- A value is found under a key exactly when the pair is an entry. -/
theorem get?_eq_some_iff (table : Table κ ν) (key : κ) (value : ν) :
    table.get? key = some value ↔ (key, value) ∈ table.entries := by
  obtain ⟨entries, nodup⟩ := table
  simp only [get?]
  induction entries with
  | nil => simp
  | cons entry rest ih =>
    obtain ⟨other, held⟩ := entry
    simp only [List.map_cons, List.nodup_cons] at nodup
    by_cases same : key = other
    · subst same
      have notIn : (key, value) ∉ rest := fun member =>
        nodup.1 (List.mem_map.2 ⟨_, member, rfl⟩)
      simp [notIn, eq_comm]
    · simp [lookup_cons, ih nodup.2, same]

end Table

end QuotaGate
