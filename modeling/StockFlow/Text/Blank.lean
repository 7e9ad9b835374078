/-!
# Blank characters

White space that separates the words of a spec, and its removal from both ends of a text.
-/

namespace StockFlow.Text

/-- White space of any script: control breaks, separators and the spaces of every width. -/
def isBlank (c : Char) : Bool :=
  let n := c.toNat
  (9 ≤ n && n ≤ 13) || (28 ≤ n && n ≤ 32) || n == 0x85 || n == 0xA0 || n == 0x1680 ||
    (0x2000 ≤ n && n ≤ 0x200A) || n == 0x2028 || n == 0x2029 || n == 0x202F || n == 0x205F ||
    n == 0x3000

/-- Every ASCII blank is a blank. -/
theorem isBlank_of_isWhitespace {c : Char} (h : c.isWhitespace = true) : isBlank c = true := by
  simp only [Char.isWhitespace, Bool.or_eq_true, decide_eq_true_eq] at h
  rcases h with ((rfl | rfl) | rfl) | rfl <;> decide

/-- The characters left once those in `p` are dropped from both ends. -/
def trimBy (p : Char → Bool) (cs : List Char) : List Char :=
  ((cs.dropWhile p).reverse.dropWhile p).reverse

/-- What is dropped lies around what is left. -/
theorem exists_eq_trimBy (p : Char → Bool) (cs : List Char) :
    ∃ front back, (∀ c ∈ front, p c = true) ∧ (∀ c ∈ back, p c = true) ∧
      cs = front ++ (trimBy p cs ++ back) := by
  have dropped : ∀ l : List Char, ∀ c ∈ l.takeWhile p, p c = true := fun l =>
    List.all_eq_true.1 List.all_takeWhile
  let kept := (cs.dropWhile p).reverse
  refine ⟨cs.takeWhile p, (kept.takeWhile p).reverse, dropped cs, ?_, ?_⟩
  · exact fun c listed => dropped kept c (List.mem_reverse.1 listed)
  · show cs = _ ++ ((kept.dropWhile p).reverse ++ _)
    rw [← List.reverse_append, List.takeWhile_append_dropWhile, List.reverse_reverse,
      List.takeWhile_append_dropWhile]

/-- A text with nothing to drop at either end stays as it is. -/
theorem trimBy_eq_self {p : Char → Bool} {cs : List Char} (first : ∀ c ∈ cs.head?, p c = false)
    (last : ∀ c ∈ cs.getLast?, p c = false) : trimBy p cs = cs := by
  have kept : ∀ l : List Char, (∀ c ∈ l.head?, p c = false) → l.dropWhile p = l := by
    intro l first
    cases l with
    | nil => rfl
    | cons c rest => rw [List.dropWhile_cons_of_neg (by simp [first c rfl])]
  rw [trimBy, kept cs first, kept cs.reverse, List.reverse_reverse]
  rwa [List.head?_reverse]

/-- A text without the blanks at its ends. -/
def strip (s : String) : String :=
  String.ofList (trimBy isBlank s.toList)

end StockFlow.Text
