import Mathlib.Data.List.Forall2
import StockFlow.Attempt

/-!
# Joining and splitting

Texts joined with a separator, as lists of characters: what a filter keeps of them, and how a blank
after each separator is moved into the parts. Reading each part of a list is reading them all.
-/

namespace StockFlow.Text

/-- Every part but the first stands behind a separator. -/
theorem intercalate_cons {α : Type} (sep first : List α) (rest : List (List α)) :
    sep.intercalate (first :: rest) = first ++ rest.flatMap (sep ++ ·) := by
  induction rest generalizing first with
  | nil => simp
  | cons next rest ih => rw [List.intercalate_cons_cons, ih]; simp

/-- Every part but the last stands before a separator. -/
theorem intercalate_concat {α : Type} (sep last : List α) (parts : List (List α)) :
    sep.intercalate (parts ++ [last]) = parts.flatMap (· ++ sep) ++ last := by
  induction parts with
  | nil => simp
  | cons first rest ih =>
    rw [List.cons_append, List.intercalate_cons_of_ne_nil (by simp), ih]
    simp

theorem filter_intercalate {α : Type} (p : α → Bool) (sep : List α) (parts : List (List α)) :
    (sep.intercalate parts).filter p = (sep.filter p).intercalate (parts.map (List.filter p)) := by
  cases parts with
  | nil => rfl
  | cons first rest =>
    rw [List.map_cons, intercalate_cons, intercalate_cons, List.filter_append, List.filter_flatMap,
      List.flatMap_map]
    simp

theorem nil_intercalate {α : Type} (parts : List (List α)) :
    [].intercalate parts = parts.flatten := by
  cases parts with
  | nil => rfl
  | cons first rest => simp [intercalate_cons, List.flatMap_id']

/-- What follows each separator can be counted to the part behind it. -/
theorem append_intercalate_cons {α : Type} (sep gap first : List α) (rest : List (List α)) :
    (sep ++ gap).intercalate (first :: rest) = sep.intercalate (first :: rest.map (gap ++ ·)) := by
  rw [intercalate_cons, intercalate_cons, List.flatMap_map]
  simp

theorem subset_intercalate {α : Type} {sep part : List α} {parts : List (List α)}
    (listed : part ∈ parts) : part ⊆ sep.intercalate parts := by
  intro c inside
  cases parts with
  | nil => cases listed
  | cons first rest =>
    rw [intercalate_cons]
    rcases List.mem_cons.1 listed with rfl | later
    · exact List.mem_append_left _ inside
    · have behind : c ∈ sep ++ part := List.mem_append_right _ inside
      exact List.mem_append_right _ (List.mem_flatMap.2 ⟨part, later, behind⟩)

theorem mem_of_mem_intercalate {α : Type} {sep : List α} {parts : List (List α)} {x : α}
    (listed : x ∈ sep.intercalate parts) : x ∈ sep ∨ ∃ part ∈ parts, x ∈ part := by
  cases parts with
  | nil => cases listed
  | cons first rest =>
    rw [intercalate_cons] at listed
    rcases List.mem_append.1 listed with here | later
    · exact .inr ⟨first, List.mem_cons_self .., here⟩
    · obtain ⟨part, known, inside⟩ := List.mem_flatMap.1 later
      exact (List.mem_append.1 inside).imp_right fun inside =>
        ⟨part, List.mem_cons_of_mem _ known, inside⟩

theorem subset_of_mem_splitOn {α : Type} [BEq α] [LawfulBEq α] {sep : α} {cs part : List α}
    (listed : part ∈ cs.splitOn sep) : part ⊆ cs := by
  have inside : part ⊆ [sep].intercalate (cs.splitOn sep) := subset_intercalate listed
  rwa [List.intercalate_splitOn] at inside

/-- The parts of a text hold no separator. -/
theorem notMem_of_mem_splitOn {α : Type} [BEq α] [LawfulBEq α] {sep : α} {cs part : List α}
    (listed : part ∈ cs.splitOn sep) : sep ∉ part := by
  induction cs generalizing part with
  | nil => simp_all
  | cons c rest ih =>
    rw [List.splitOn_cons_eq_if_modifyHead] at listed
    split at listed
    · rcases List.mem_cons.1 listed with rfl | later
      · exact List.not_mem_nil
      · exact ih later
    · rename_i other
      cases parts : rest.splitOn sep with
      | nil => exact (List.splitOn_ne_nil _ _ parts).elim
      | cons first more =>
        rw [parts, List.modifyHead_cons] at listed
        rcases List.mem_cons.1 listed with rfl | later
        · have clean : sep ∉ first := ih (by simp [parts])
          have differs : sep ≠ c := fun same => other (by simp [same])
          simp [clean, differs]
        · exact ih (by simp [parts, later])

/-- All members of a list are read just if each of them is. -/
theorem mapM_eq_ok_iff {ε α β : Type} {read : α → Except ε β} {given : List α} {found : List β} :
    given.mapM read = .ok found ↔ List.Forall₂ (fun a b => read a = .ok b) given found := by
  induction given generalizing found with
  | nil =>
    rw [List.mapM_nil, List.forall₂_nil_left_iff]
    exact ⟨fun same => (Except.ok.inj same).symm, fun same => same ▸ rfl⟩
  | cons a rest ih =>
    rw [List.mapM_cons, bind_eq_ok_iff, List.forall₂_cons_left_iff]
    constructor
    · rintro ⟨b, first, others⟩
      obtain ⟨more, others, same⟩ := bind_eq_ok_iff.1 others
      exact ⟨b, more, first, ih.1 others, (Except.ok.inj same).symm⟩
    · rintro ⟨b, more, first, others, rfl⟩
      exact ⟨b, first, bind_eq_ok_iff.2 ⟨more, ih.2 others, rfl⟩⟩

/-- Of two lists related member by member, each member of the second has one of the first. -/
theorem exists_of_mem_forall₂ {α β : Type} {r : α → β → Prop} {given : List α} {found : List β}
    (each : List.Forall₂ r given found) {b : β} (listed : b ∈ found) : ∃ a ∈ given, r a b := by
  induction each with
  | nil => cases listed
  | @cons a _ rest _ first _ ih =>
    rcases List.mem_cons.1 listed with rfl | later
    · exact ⟨a, List.mem_cons_self .., first⟩
    · obtain ⟨a', known, related⟩ := ih later
      exact ⟨a', List.mem_cons_of_mem _ known, related⟩

/-- Each result has been read from a member of the list. -/
theorem exists_of_mem_mapM {ε α β : Type} {read : α → Except ε β} {given : List α} {found : List β}
    (done : given.mapM read = .ok found) {b : β} (listed : b ∈ found) :
    ∃ a ∈ given, read a = .ok b :=
  exists_of_mem_forall₂ (mapM_eq_ok_iff.1 done) listed

/-- Each member of the list has been read. -/
theorem read_of_mem_mapM {ε α β : Type} {read : α → Except ε β} {given : List α} {found : List β}
    (done : given.mapM read = .ok found) {a : α} (listed : a ∈ given) : ∃ b, read a = .ok b := by
  obtain ⟨b, -, known⟩ := exists_of_mem_forall₂ (mapM_eq_ok_iff.1 done).flip listed
  exact ⟨b, known⟩

/-- Reading the members of a list fails just if one of them cannot be read; the first of those tells
the fault. -/
theorem mapM_eq_error_iff {ε α β : Type} {read : α → Except ε β} {given : List α} {fault : ε} :
    given.mapM read = .error fault ↔
      ∃ i a, given[i]? = some a ∧ read a = .error fault ∧
        ∀ earlier ∈ given.take i, ∃ b, read earlier = .ok b := by
  induction given with
  | nil => exact ⟨fun failed => (nomatch failed), fun ⟨i, a, listed, _⟩ => by simp at listed⟩
  | cons first rest ih =>
    rw [List.mapM_cons, bind_eq_error_iff]
    constructor
    · rintro (failed | ⟨b, done, failed⟩)
      · exact ⟨0, first, rfl, failed, by simp⟩
      · rcases bind_eq_error_iff.1 failed with failed | ⟨_, -, failed⟩
        · obtain ⟨i, a, listed, stuck, earlier⟩ := ih.1 failed
          refine ⟨i + 1, a, listed, stuck, ?_⟩
          rw [List.take_succ_cons, List.forall_mem_cons]
          exact ⟨⟨b, done⟩, earlier⟩
        · cases failed
    · rintro ⟨i, a, listed, stuck, earlier⟩
      cases i with
      | zero =>
        obtain rfl := Option.some.inj listed
        exact .inl stuck
      | succ i =>
        rw [List.take_succ_cons, List.forall_mem_cons] at earlier
        obtain ⟨⟨b, done⟩, earlier⟩ := earlier
        exact .inr ⟨b, done, bind_eq_error_iff.2 (.inl (ih.2 ⟨i, a, listed, stuck, earlier⟩))⟩

/-- Where each member can be read, all are. -/
theorem exists_mapM {ε α β : Type} {read : α → Except ε β} {given : List α}
    (each : ∀ a ∈ given, ∃ b, read a = .ok b) : ∃ found, given.mapM read = .ok found := by
  cases done : given.mapM read with
  | ok found => exact ⟨found, rfl⟩
  | error fault =>
    obtain ⟨i, a, listed, failed, -⟩ := mapM_eq_error_iff.1 done
    obtain ⟨b, known⟩ := each a (List.mem_of_getElem? listed)
    rw [known] at failed
    cases failed

/-- Going through a list fails just if one of its members cannot be taken behind those before it. -/
theorem foldlM_eq_error_iff {ε α β : Type} {next : β → α → Except ε β} {start : β} {given : List α}
    {fault : ε} :
    given.foldlM next start = .error fault ↔
      ∃ i a reached, given[i]? = some a ∧ (given.take i).foldlM next start = .ok reached ∧
        next reached a = .error fault := by
  induction given generalizing start with
  | nil => exact ⟨fun failed => (nomatch failed), fun ⟨i, a, _, listed, _⟩ => by simp at listed⟩
  | cons first rest ih =>
    rw [List.foldlM_cons, bind_eq_error_iff]
    constructor
    · rintro (failed | ⟨b, done, failed⟩)
      · exact ⟨0, first, start, rfl, rfl, failed⟩
      · obtain ⟨i, a, reached, listed, before, stuck⟩ := ih.1 failed
        refine ⟨i + 1, a, reached, listed, ?_, stuck⟩
        rw [List.take_succ_cons, List.foldlM_cons]
        exact bind_eq_ok_iff.2 ⟨b, done, before⟩
    · rintro ⟨i, a, reached, listed, before, stuck⟩
      cases i with
      | zero =>
        obtain rfl := Option.some.inj listed
        obtain rfl := Except.ok.inj before
        exact .inl stuck
      | succ i =>
        rw [List.take_succ_cons, List.foldlM_cons] at before
        obtain ⟨b, done, before⟩ := bind_eq_ok_iff.1 before
        exact .inr ⟨b, done, ih.2 ⟨i, a, reached, listed, before, stuck⟩⟩

end StockFlow.Text
