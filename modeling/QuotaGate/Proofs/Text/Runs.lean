import QuotaGate.Text.Blank

/-!
# Runs at the head of a list

A reader that takes what satisfies a test takes a run of it exactly if the run is not prolonged by
what follows. Trimming is two such readers, one from each end.

Results:
1. `takeWhile_run`, `dropWhile_run`: a run that nothing prolongs is taken as a whole and alone.
   `run_inj`, `run_inj_at_end`: so a list comes apart into a run and the rest in one way only.
2. `Text.trimChars_padded`: of a text between blanks exactly the text is left.
3. `Text.exists_dropped`, `Text.dropEndWhile_append`: what is dropped at the end of a text is the
   run that stands there.
-/

namespace QuotaGate

section Runs

variable {α : Type} {test : α → Bool} {run rest : List α}

/-- What does not begin with an element that satisfies a test. -/
def Stops (test : α → Bool) (rest : List α) : Prop := ∀ first ∈ rest.head?, test first = false

theorem stops_nil : Stops test [] := fun _ first => nomatch first

theorem stops_cons_iff {first : α} : Stops test (first :: rest) ↔ test first = false := by
  constructor
  · intro stops
    exact stops first rfl
  · intro fails other isFirst
    cases Option.mem_some.1 isFirst
    exact fails

theorem stops_dropWhile (test : α → Bool) (list : List α) : Stops test (list.dropWhile test) := by
  intro first isFirst
  have fails := List.head?_dropWhile_not test list
  rw [Option.mem_def.1 isFirst] at fails
  exact fails

theorem dropWhile_of_stops (stops : Stops test rest) : rest.dropWhile test = rest := by
  cases rest with
  | nil => rfl
  | cons first rest =>
    refine List.dropWhile_cons_of_neg ?_
    rw [stops_cons_iff.1 stops]
    exact Bool.false_ne_true

theorem takeWhile_of_stops (stops : Stops test rest) : rest.takeWhile test = [] := by
  cases rest with
  | nil => rfl
  | cons first rest =>
    refine List.takeWhile_cons_of_neg ?_
    rw [stops_cons_iff.1 stops]
    exact Bool.false_ne_true

theorem takeWhile_run (all : ∀ element ∈ run, test element = true) (stops : Stops test rest) :
    (run ++ rest).takeWhile test = run := by
  rw [List.takeWhile_append_of_pos all, takeWhile_of_stops stops, List.append_nil]

theorem dropWhile_run (all : ∀ element ∈ run, test element = true) (stops : Stops test rest) :
    (run ++ rest).dropWhile test = rest := by
  rw [List.dropWhile_append_of_pos all, dropWhile_of_stops stops]

/-- A run at the head of a list can be told from what follows in one way only. -/
theorem run_inj {other more : List α} (all : ∀ element ∈ run, test element = true)
    (stops : Stops test rest) (allOther : ∀ element ∈ other, test element = true)
    (stopsOther : Stops test more) (same : run ++ rest = other ++ more) :
    run = other ∧ rest = more := by
  have taken := congrArg (List.takeWhile test) same
  have dropped := congrArg (List.dropWhile test) same
  rw [takeWhile_run all stops, takeWhile_run allOther stopsOther] at taken
  rw [dropWhile_run all stops, dropWhile_run allOther stopsOther] at dropped
  exact ⟨taken, dropped⟩

/-- And so can a run at its end. -/
theorem run_inj_at_end {before after other : List α} (all : ∀ element ∈ run, test element = true)
    (stops : Stops test before.reverse) (allOther : ∀ element ∈ other, test element = true)
    (stopsOther : Stops test after.reverse) (same : before ++ run = after ++ other) :
    before = after ∧ run = other := by
  have reversed := congrArg List.reverse same
  rw [List.reverse_append, List.reverse_append] at reversed
  obtain ⟨runs, rests⟩ := run_inj (fun element member => all element (List.mem_reverse.1 member))
    stops (fun element member => allOther element (List.mem_reverse.1 member)) stopsOther reversed
  exact ⟨List.reverse_inj.1 rests, List.reverse_inj.1 runs⟩

theorem of_mem_takeWhile {list : List α} : ∀ element ∈ list.takeWhile test, test element = true :=
  List.all_eq_true.1 List.all_takeWhile

end Runs

namespace Text

variable {before body after : List Char}

/-- Trimming leaves exactly what stands between the blanks. -/
theorem trimChars_padded (blankBefore : ∀ c ∈ before, isBlank c = true)
    (blankAfter : ∀ c ∈ after, isBlank c = true) (begins : Stops isBlank body)
    (ends : Stops isBlank body.reverse) : trimChars (before ++ (body ++ after)) = body := by
  have opened : (before ++ (body ++ after)).dropWhile isBlank =
      (body ++ after).dropWhile isBlank := List.dropWhile_append_of_pos blankBefore
  have closed : ∀ c ∈ after.reverse, isBlank c = true := by
    intro c member
    exact blankAfter c (List.mem_reverse.1 member)
  unfold trimChars dropEndWhile
  rw [opened]
  cases body with
  | nil =>
    have emptied := dropWhile_run blankAfter stops_nil
    rw [List.append_nil] at emptied
    rw [List.nil_append, emptied]
    rfl
  | cons c body =>
    rw [List.cons_append, dropWhile_of_stops (stops_cons_iff.2 (stops_cons_iff.1 begins)),
      ← List.cons_append, List.reverse_append, dropWhile_run closed ends, List.reverse_reverse]

/-! ## The end of a text -/

variable {drop : Char → Bool}

theorem exists_dropped (drop : Char → Bool) (chars : List Char) :
    ∃ dropped, chars = dropEndWhile drop chars ++ dropped ∧ ∀ c ∈ dropped, drop c = true := by
  refine ⟨(chars.reverse.takeWhile drop).reverse, ?_, fun c member => ?_⟩
  · rw [dropEndWhile, ← List.reverse_append, List.takeWhile_append_dropWhile, List.reverse_reverse]
  · exact of_mem_takeWhile c (List.mem_reverse.1 member)

theorem stops_reverse_dropEndWhile (drop : Char → Bool) (chars : List Char) :
    Stops drop (dropEndWhile drop chars).reverse := by
  rw [dropEndWhile, List.reverse_reverse]
  exact stops_dropWhile drop chars.reverse

theorem dropEndWhile_append {tail : List Char} (all : ∀ c ∈ tail, drop c = true)
    (chars : List Char) : dropEndWhile drop (chars ++ tail) = dropEndWhile drop chars := by
  have run : ∀ c ∈ tail.reverse, drop c = true := fun c member => all c (List.mem_reverse.1 member)
  rw [dropEndWhile, List.reverse_append, List.dropWhile_append_of_pos run, dropEndWhile]

end Text

end QuotaGate
