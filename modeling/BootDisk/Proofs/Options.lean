import BootDisk.Options

/-!
# Arguments with one command word

What is read of arguments goes on from left to right, so that what stands before the command word and what stands behind it say the same
whatever the word is. Arguments that differ in the word only are thus the same run of another task, or at fault in the same way.
-/

namespace BootDisk.Options

variable {s s' : Settings} {words words' args : List String} {word : String}

/-- Arguments that do not break off inside an option are read first, and then what follows them. -/
theorem scan_append (h : ∀ option kind, scan s words args ≠ .error (.missingValue option kind)) (rest : List String) :
    scan s words (args ++ rest) = (scan s words args).bind fun r => scan r.1 r.2 rest := by
  fun_induction scan s words args
  case case1 => rfl
  all_goals
    rw [List.cons_append, scan.eq_def]
    simp_all [Except.bind]

/-- A command word is no option. -/
theorem scan_word {t : Task} (h : Task.ofWord? word = some t) (s : Settings) (words rest : List String) :
    scan s words (word :: rest) = scan s (words ++ [word]) rest := by
  have hword : word = "stage" ∨ word = "image" ∨ word = "all" ∨ word = "qemu" ∨ word = "run" ∨ word = "check" := by
    unfold Task.ofWord? at h
    grind
  rw [scan.eq_def]
  rcases hword with rfl | rfl | rfl | rfl | rfl | rfl <;> simp

/-- Words that are there already only stand in front of those that are gathered. -/
theorem scan_words (s : Settings) (before words args : List String) :
    scan s (before ++ words) args = (scan s words args).map fun r => (r.1, before ++ r.2) := by
  fun_induction scan s words args
  case case1 => rfl
  all_goals
    rw [scan.eq_def]
    simp_all [Except.map]

/-- Arguments that differ in the command word only are runs of the tasks that the words name, under the same settings, or are at fault in
the same way, if they do not break off inside an option before the word. -/
theorem parse_word {before : List String} (h : ∀ option kind, scan {} [] before ≠ .error (.missingValue option kind))
    (after : List String) :
    ∃ r : Except OptionError Settings, ∀ t word, Task.ofWord? word = some t →
      parse (before ++ word :: after) = r.map fun settings => ⟨t, settings⟩ := by
  have hscan (t : Task) (word : String) (hword : Task.ofWord? word = some t) :
      scan {} [] (before ++ word :: after) =
        (scan {} [] before).bind fun r => (scan r.1 [] after).map fun r' => (r'.1, r.2 ++ word :: r'.2) := by
    rw [scan_append h]
    refine congrArg _ (funext fun r => ?_)
    have hbehind := scan_words r.1 (r.2 ++ [word]) [] after
    rw [List.append_nil] at hbehind
    simpa [scan_word hword] using hbehind
  cases hbefore : scan {} [] before with
  | error e =>
    refine ⟨.error e, fun t word hword => ?_⟩
    rw [parse, hscan t word hword, hbefore]
    rfl
  | ok r =>
    cases hafter : scan r.1 [] after with
    | error e =>
      refine ⟨.error e, fun t word hword => ?_⟩
      rw [parse, hscan t word hword, hbefore, Except.bind, hafter]
      rfl
    | ok r' =>
      by_cases hwords : r.2 = [] ∧ r'.2 = []
      · refine ⟨.ok r'.1, fun t word hword => ?_⟩
        simp [parse, hscan t word hword, hbefore, hafter, hwords, hword, Except.bind, Except.map]
      · refine ⟨.error .usage, fun t word hword => ?_⟩
        rw [parse, hscan t word hword, hbefore, Except.bind, hafter]
        dsimp only [Except.map]
        split
        · next w heq =>
          rcases List.append_eq_singleton_iff.1 heq with ⟨hnil, hword'⟩ | ⟨-, hnil⟩
          · exact absurd ⟨hnil, (List.cons.inj hword').2⟩ hwords
          · cases hnil
        · rfl

end BootDisk.Options
