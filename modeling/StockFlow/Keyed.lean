/-!
# Named entries in order

Lists of named entries that keep the order in which the names first appeared: putting an entry
under a known name replaces it in place, under a new name it is appended.
-/

namespace StockFlow

/-- Entries under names, in order of first appearance. -/
abbrev Keyed (β : Type) := List (String × β)

namespace Keyed

variable {β : Type}

/-- The names, in order. -/
def names (entries : Keyed β) : List String :=
  entries.map (·.1)

/-- The entry under a name. -/
def find? (name : String) : Keyed β → Option β
  | [] => none
  | (key, entry) :: rest => if key = name then some entry else find? name rest

/-- Whether a name has an entry. -/
def has (entries : Keyed β) (name : String) : Bool :=
  entries.any (·.1 == name)

/-- Puts an entry under a name. -/
def put (name : String) (entry : β) : Keyed β → Keyed β
  | [] => [(name, entry)]
  | (key, old) :: rest =>
    if key = name then (key, entry) :: rest else (key, old) :: put name entry rest

/-- The entries of a list of pairs, the later of two pairs of one name giving the entry. -/
def ofPairs (pairs : List (String × β)) : Keyed β :=
  pairs.foldl (fun entries (name, entry) => put name entry entries) []

theorem find?_put_self (name : String) (entry : β) (entries : Keyed β) :
    (put name entry entries).find? name = some entry := by
  induction entries with
  | nil => simp [put, find?]
  | cons head rest ih => by_cases h : head.1 = name <;> simp [put, find?, h, ih]

theorem find?_put_of_ne {name other : String} (h : name ≠ other) (entry : β) (entries : Keyed β) :
    (put name entry entries).find? other = entries.find? other := by
  induction entries with
  | nil => simp [put, find?, h]
  | cons head rest ih =>
    by_cases hk : head.1 = name
    · have : head.1 ≠ other := hk ▸ h
      simp [put, find?, hk, h]
    · simp [put, find?, hk, ih]

theorem find?_put (name other : String) (entry : β) (entries : Keyed β) :
    (put name entry entries).find? other = if name = other then some entry else entries.find? other := by
  by_cases h : name = other
  · rw [if_pos h, ← h, find?_put_self]
  · rw [if_neg h, find?_put_of_ne h]

/-- The names are those that have an entry. -/
theorem mem_names_iff {name : String} {entries : Keyed β} :
    name ∈ entries.names ↔ ∃ entry, entries.find? name = some entry := by
  induction entries with
  | nil => simp [names, find?]
  | cons head rest ih =>
    have names_cons : names (head :: rest) = head.1 :: names rest := rfl
    by_cases h : head.1 = name
    · simp [names_cons, find?, h]
    · simp [names_cons, find?, h, Ne.symm h, ih]

theorem find?_eq_none_iff {name : String} {entries : Keyed β} :
    entries.find? name = none ↔ name ∉ entries.names := by
  rw [mem_names_iff]
  cases entries.find? name <;> simp

theorem mem_of_find? {name : String} {entry : β} {entries : Keyed β}
    (h : entries.find? name = some entry) : (name, entry) ∈ entries := by
  induction entries with
  | nil => cases h
  | cons head rest ih =>
    by_cases same : head.1 = name
    · have : head.2 = entry := by simpa [find?, same] using h
      exact List.mem_cons.2 (.inl (by rw [← same, ← this]))
    · exact List.mem_cons_of_mem _ (ih (by simpa [find?, same] using h))

/-- Where no name comes twice, each entry is the one under its name. -/
theorem find?_of_mem {entries : Keyed β} (distinct : entries.names.Nodup) {name : String} {entry : β}
    (h : (name, entry) ∈ entries) : entries.find? name = some entry := by
  induction entries with
  | nil => cases h
  | cons head rest ih =>
    have names_cons : names (head :: rest) = head.1 :: names rest := rfl
    rw [names_cons, List.nodup_cons] at distinct
    rcases List.mem_cons.1 h with rfl | h
    · simp [find?]
    · have other : head.1 ≠ name := by
        rintro rfl
        exact distinct.1 (List.mem_map.2 ⟨_, h, rfl⟩)
      simpa [find?, other] using ih distinct.2 h

theorem names_put (name : String) (entry : β) (entries : Keyed β) :
    (put name entry entries).names =
      if name ∈ entries.names then entries.names else entries.names ++ [name] := by
  induction entries with
  | nil => simp [put, names]
  | cons head rest ih =>
    by_cases h : head.1 = name
    · simp [put, names, h]
    · have : (put name entry (head :: rest)).names = head.1 :: (put name entry rest).names := by
        simp [put, names, h]
      have head_names : names (head :: rest) = head.1 :: names rest := rfl
      rw [this, ih, head_names]
      by_cases hm : name ∈ names rest
      · simp [hm]
      · simp [hm, Ne.symm h]

theorem mem_names_put {name other : String} {entry : β} {entries : Keyed β} :
    other ∈ (put name entry entries).names ↔ other ∈ entries.names ∨ other = name := by
  rw [names_put]
  split
  · rename_i known
    exact ⟨.inl, fun h => h.elim id fun same => same ▸ known⟩
  · rw [List.mem_append, List.mem_singleton]

theorem nodup_names_put {entries : Keyed β} (distinct : entries.names.Nodup) (name : String)
    (entry : β) : (put name entry entries).names.Nodup := by
  rw [names_put]
  split
  · exact distinct
  · rename_i fresh
    refine List.nodup_append.2 ⟨distinct, by simp, ?_⟩
    intro a known b new
    rw [List.mem_singleton.1 new]
    rintro rfl
    exact fresh known

/-- Two lists of the same names in the same order, each once, differ in an entry or not at all. -/
theorem eq_of_find?_eq {entries entries' : Keyed β} (distinct : entries.names.Nodup)
    (same_names : entries.names = entries'.names)
    (same : ∀ name, entries.find? name = entries'.find? name) : entries = entries' := by
  induction entries generalizing entries' with
  | nil => exact (List.map_eq_nil_iff.1 same_names.symm).symm
  | cons head rest ih =>
    obtain ⟨name, entry⟩ := head
    cases entries' with
    | nil => cases same_names
    | cons head' rest' =>
      obtain ⟨name', entry'⟩ := head'
      obtain ⟨rfl, same_rest⟩ : name = name' ∧ names rest = names rest' := List.cons.inj same_names
      obtain ⟨fresh, distinct⟩ : name ∉ names rest ∧ (names rest).Nodup := List.nodup_cons.1 distinct
      have here := same name
      rw [find?, if_pos rfl, find?, if_pos rfl] at here
      rw [Option.some.inj here, ih distinct same_rest fun other => ?_]
      have there := same other
      rw [find?, find?] at there
      split at there
      · rename_i is_first
        subst is_first
        rw [find?_eq_none_iff.2 fresh, find?_eq_none_iff.2 (same_rest ▸ fresh)]
      · exact there

end Keyed

end StockFlow
