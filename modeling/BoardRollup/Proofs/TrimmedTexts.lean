import BoardRollup.Number.Numeral

/-!
# What stands between the blanks

Trimming takes away the blanks at both ends of a text and nothing else. What is left begins and
ends with no blank, and it is the only part of the text that does so and has nothing but blanks
around it.
-/

namespace BoardRollup

/-- Characters with blanks around a part that neither begins nor ends with one. -/
structure TrimsTo (cs body : List Char) : Prop where
  around : ∃ before after, cs = before ++ (body ++ after) ∧
    (∀ c ∈ before, isBlank c = true) ∧ ∀ c ∈ after, isBlank c = true
  first : ∀ c ∈ body.head?, isBlank c = false
  last : ∀ c ∈ body.getLast?, isBlank c = false

theorem dropWhile_isBlank_append {before body : List Char}
    (blank : ∀ c ∈ before, isBlank c = true) (first : ∀ c ∈ body.head?, isBlank c = false) :
    (before ++ body).dropWhile isBlank = body := by
  rw [List.dropWhile_append_of_pos blank]
  cases body with
  | nil => rfl
  | cons c body =>
    apply List.dropWhile_cons_of_neg
    rw [first c rfl]
    exact Bool.false_ne_true

theorem TrimsTo.trimBlanks_eq {cs body : List Char} (trimmed : TrimsTo cs body) :
    trimBlanks cs = body := by
  obtain ⟨before, after, rfl, blankBefore, blankAfter⟩ := trimmed.around
  have blankReverse : ∀ c ∈ after.reverse, isBlank c = true := by
    intro c mem
    exact blankAfter c (List.mem_reverse.mp mem)
  have lastReverse : ∀ c ∈ body.reverse.head?, isBlank c = false := by
    rw [List.head?_reverse]
    exact trimmed.last
  cases body with
  | nil =>
    -- Nothing but blanks: the first cut takes all of them.
    have blank : ∀ c ∈ before ++ after, isBlank c = true := by
      intro c mem
      rcases List.mem_append.mp mem with left | right
      · exact blankBefore c left
      · exact blankAfter c right
    have cut : (before ++ after ++ []).dropWhile isBlank = [] :=
      dropWhile_isBlank_append blank nofun
    rw [List.append_nil] at cut
    rw [trimBlanks, List.nil_append, cut]
    rfl
  | cons c body =>
    have firstAppend : ∀ d ∈ (c :: body ++ after).head?, isBlank d = false := trimmed.first
    rw [trimBlanks, dropWhile_isBlank_append blankBefore firstAppend, List.reverse_append,
      dropWhile_isBlank_append blankReverse lastReverse, List.reverse_reverse]

theorem isBlank_head?_dropWhile (cs : List Char) :
    ∀ c ∈ (cs.dropWhile isBlank).head?, isBlank c = false := by
  intro c first
  have stop := List.head?_dropWhile_not isBlank cs
  rw [first] at stop
  simpa using stop

theorem trimsTo_trimBlanks (cs : List Char) : TrimsTo cs (trimBlanks cs) := by
  have front : cs.takeWhile isBlank ++ cs.dropWhile isBlank = cs :=
    List.takeWhile_append_dropWhile
  have back : trimBlanks cs ++ ((cs.dropWhile isBlank).reverse.takeWhile isBlank).reverse =
      cs.dropWhile isBlank := by
    rw [trimBlanks, ← List.reverse_append, List.takeWhile_append_dropWhile, List.reverse_reverse]
  constructor
  case around =>
    refine ⟨cs.takeWhile isBlank, ((cs.dropWhile isBlank).reverse.takeWhile isBlank).reverse,
      ?_, ?_, ?_⟩
    · rw [back, front]
    · intro c mem
      exact List.all_eq_true.mp List.all_takeWhile c mem
    · intro c mem
      exact List.all_eq_true.mp List.all_takeWhile c (List.mem_reverse.mp mem)
  case first =>
    intro c first
    apply isBlank_head?_dropWhile cs
    rw [← back, List.head?_append, first]
    rfl
  case last =>
    intro c last
    rw [trimBlanks, List.getLast?_reverse] at last
    exact isBlank_head?_dropWhile _ c last

theorem trimBlanks_eq_iff {cs body : List Char} : trimBlanks cs = body ↔ TrimsTo cs body := by
  constructor
  · rintro rfl
    exact trimsTo_trimBlanks cs
  · exact TrimsTo.trimBlanks_eq

/-- A text without a blank is left as it is. -/
theorem trimBlanks_of_shown {cs : List Char} (shown : ∀ c ∈ cs, isBlank c = false) :
    trimBlanks cs = cs := by
  apply TrimsTo.trimBlanks_eq
  constructor
  case around => exact ⟨[], [], (List.append_nil cs).symm, nofun, nofun⟩
  case first => exact fun c first => shown c (List.mem_of_mem_head? first)
  case last => exact fun c last => shown c (List.mem_of_getLast? last)

end BoardRollup
