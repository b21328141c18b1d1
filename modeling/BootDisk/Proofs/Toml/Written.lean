import Mathlib.Data.List.Forall2
import BootDisk.Toml.Document
import BootDisk.Proofs.Text.Digits

/-!
# Documents as they are written

A plain way to write a document: sections under headers, a field a line, strings in double quotes with the escapes that they need. What
is so written reads back as it was meant, whatever is in the strings: here each value by itself (`Toml.readValue_chars`), with any text
behind it.
-/

namespace BootDisk.Toml

/-! ## Writing -/

/-- A value to write. -/
inductive Item where
  | text (s : String)
  | number (n : Nat)
  | flag (b : Bool)
  | texts (ss : List String)
  deriving DecidableEq, Repr

/-- The characters with an escape of one letter, and the letters. -/
def shortMarks : List (Char × Char) :=
  [('"', '"'), ('\\', '\\'), ('\x08', 'b'), ('\t', 't'), ('\n', 'n'), ('\x0c', 'f'), ('\r', 'r')]

/-- A character as it stands in double quotes: behind a backslash if it has an escape of one letter, by its number if it is another one that
may not stand there, and as it is otherwise. -/
def escaped (c : Char) : List Char :=
  match shortMarks.lookup c with
  | some e => ['\\', e]
  | none =>
    if c < ' ' ∨ c = '\x7f' then ['\\', 'u', '0', '0', Nat.digitChar (c.toNat / 16), Nat.digitChar (c.toNat % 16)]
    else [c]

/-- A string in double quotes. -/
def quoted (s : String) : List Char :=
  '"' :: s.toList.flatMap escaped ++ ['"']

/-- Strings with commas between them. -/
def listed : List String → List Char
  | [] => []
  | [s] => quoted s
  | s :: ss => quoted s ++ ',' :: ' ' :: listed ss

/-- A value as it is written. -/
def Item.chars : Item → List Char
  | text s => quoted s
  | number n => Nat.toDigits 10 n
  | flag true => ['t', 'r', 'u', 'e']
  | flag false => ['f', 'a', 'l', 's', 'e']
  | texts ss => '[' :: listed ss ++ [']']

/-- The sections of a document to write, each with its fields. -/
abbrev Sections := List (String × List (String × Item))

/-- The line of a field. -/
def fieldChars (f : String × Item) : List Char :=
  f.1.toList ++ ' ' :: '=' :: ' ' :: f.2.chars ++ ['\n']

/-- The header of a section, and the lines of its fields. -/
def sectionChars (s : String × List (String × Item)) : List Char :=
  '[' :: s.1.toList ++ [']', '\n'] ++ s.2.flatMap fieldChars

/-- A document as it is written. -/
def Sections.text (doc : Sections) : String :=
  String.ofList (doc.flatMap sectionChars)

/-- What a value reads back as. -/
def Item.Is : Item → Node → Prop
  | text s, n => ∃ span, n = .string s span
  | number i, n => ∃ span, n = .integer i span
  | flag b, n => ∃ span, n = .boolean b span
  | texts ss, n => ∃ items span, n = .array items span ∧ List.Forall₂ (fun s n => ∃ span, n = .string s span) ss items

/-- A number can be written if 64 bits hold it with a sign; anything else always can. -/
def Item.Writable : Item → Prop
  | number n => n < 0x8000000000000000
  | _ => True

/-! ## Strings -/

theorem consRead_some {c : Char} {s rest : List Char} : consRead c (some (s, rest)) = some (c :: s, rest) :=
  rfl

theorem shortEscape_of_mem : ∀ p ∈ shortMarks, shortEscape p.2 = some p.1 ∧ p.2 ≠ 'u' ∧ p.2 ≠ 'U' := by
  decide

theorem mem_of_lookup {c e : Char} (h : shortMarks.lookup c = some e) : (c, e) ∈ shortMarks := by
  obtain ⟨before, after, hsplit, -⟩ := List.lookup_eq_some_iff.1 h
  rw [hsplit]
  exact List.mem_append_right _ List.mem_cons_self

theorem ne_of_lookup_eq_none {c : Char} (h : shortMarks.lookup c = none) : c ≠ '"' ∧ c ≠ '\\' := by
  constructor
  · rintro rfl
    cases h
  · rintro rfl
    cases h

theorem basicString_quote (rest : List Char) : basicString ('"' :: rest) = some ([], rest) :=
  rfl

theorem basicString_number (a b c d : Char) (rest : List Char) :
    basicString ('\\' :: 'u' :: a :: b :: c :: d :: rest) =
      ((hexNumber [a, b, c, d]).bind scalar?).bind fun x => consRead x (basicString rest) :=
  rfl

theorem basicString_short {e : Char} (hu : e ≠ 'u') (hU : e ≠ 'U') (rest : List Char) :
    basicString ('\\' :: e :: rest) = (shortEscape e).bind fun c => consRead c (basicString rest) := by
  simp [basicString, hu, hU]

theorem basicString_plain {c : Char} (hquote : c ≠ '"') (hbackslash : c ≠ '\\') (hplain : isPlain c = true) (rest : List Char) :
    basicString (c :: rest) = consRead c (basicString rest) := by
  rw [basicString.eq_def]
  split <;> simp_all

theorem digitValue_digitChar : ∀ d < 16, digitValue (Nat.digitChar d) = some d := by
  decide

theorem hexNumber_digits {n : Nat} (h : n < 128) :
    hexNumber ['0', '0', Nat.digitChar (n / 16), Nat.digitChar (n % 16)] = some n := by
  have hhigh := digitValue_digitChar (n / 16) (by omega)
  have hlow := digitValue_digitChar (n % 16) (by omega)
  have hzero : digitValue '0' = some 0 := rfl
  have hvalue : ofDigits 16 [0, 0, n / 16, n % 16] = n := by
    simp only [ofDigits, List.foldl_cons, List.foldl_nil]
    omega
  simp only [hexNumber, List.mapM_cons, List.mapM_nil, hzero, hhigh, hlow]
  exact congrArg some hvalue

/-- A character below the space, or the delete mark, has a number of two digits. -/
theorem toNat_lt_of_control {c : Char} (h : c < ' ' ∨ c = '\x7f') : c.toNat < 128 := by
  rcases h with h | rfl
  · have hlt : c.toNat < ' '.toNat := h
    exact Nat.lt_trans hlt (by decide)
  · decide

/-- What is written for a character is read as the character. -/
theorem basicString_escaped (c : Char) (rest : List Char) : basicString (escaped c ++ rest) = consRead c (basicString rest) := by
  unfold escaped
  split
  · next e he =>
    obtain ⟨hshort, hu, hU⟩ := shortEscape_of_mem _ (mem_of_lookup he)
    rw [List.cons_append, List.singleton_append, basicString_short hu hU, hshort, Option.bind_some]
  · next hnone =>
    obtain ⟨hquote, hbackslash⟩ := ne_of_lookup_eq_none hnone
    split
    · next hcontrol =>
      have hlt := toNat_lt_of_control hcontrol
      simp only [List.cons_append, List.nil_append]
      rw [basicString_number, hexNumber_digits hlt]
      simp only [Option.bind_some, scalar?]
      rw [if_pos (Or.inl (by omega)), Char.ofNat_toNat]
      rfl
    · next hcontrol =>
      obtain ⟨hspace, hdelete⟩ := not_or.1 hcontrol
      refine basicString_plain hquote hbackslash ?_ rest
      simp [isPlain, hdelete, Char.not_lt.1 hspace]

theorem basicString_flatMap (cs rest : List Char) : basicString (cs.flatMap escaped ++ '"' :: rest) = some (cs, rest) := by
  induction cs with
  | nil => exact basicString_quote rest
  | cons c cs ih => rw [List.flatMap_cons, List.append_assoc, basicString_escaped, ih, consRead_some]

/-- What is written for a character does not start with a quote. -/
theorem escaped_eq_cons (c : Char) : ∃ d ds, escaped c = d :: ds ∧ d ≠ '"' := by
  unfold escaped
  split
  · exact ⟨_, _, rfl, by decide⟩
  · next hnone =>
    split
    · exact ⟨_, _, rfl, by decide⟩
    · exact ⟨c, [], rfl, (ne_of_lookup_eq_none hnone).1⟩

theorem anyString_one {cs : List Char} (h : ∀ rest, cs ≠ '"' :: '"' :: rest) : anyString ('"' :: cs) = basicString cs := by
  rw [anyString.eq_def]
  split
  · next heq => exact absurd (List.cons.inj heq).2 (h _)
  · next heq => cases heq
  · rfl

/-- A string in double quotes reads back, if no other quote follows, which could be taken for one of three at its start. -/
theorem readLeaf_quoted (s : String) {rest : List Char} (h : rest.head? ≠ some '"') :
    ∃ span, readLeaf (quoted s ++ rest) = some (.string s span, rest) := by
  have hchars : quoted s ++ rest = '"' :: (s.toList.flatMap escaped ++ '"' :: rest) := by
    simp [quoted]
  have hone : ∀ more, s.toList.flatMap escaped ++ '"' :: rest ≠ '"' :: '"' :: more := by
    intro more heq
    cases hs : s.toList with
    | nil =>
      rw [hs, List.flatMap_nil, List.nil_append, List.cons.injEq] at heq
      exact h (heq.2 ▸ rfl)
    | cons c cs =>
      obtain ⟨d, ds, hd, hquote⟩ := escaped_eq_cons c
      rw [hs, List.flatMap_cons, hd, List.cons_append, List.cons_append, List.cons.injEq] at heq
      exact hquote heq.1
  refine ⟨⟨('"' :: (s.toList.flatMap escaped ++ '"' :: rest)).length, rest.length⟩, ?_⟩
  rw [hchars, readLeaf, anyString_one hone, basicString_flatMap, Option.map_some]
  dsimp only
  rw [String.ofList_toList]

/-! ## Other values -/

/-- A run of bare characters at the end of a line. -/
theorem readRun_line {run : List Char} (hrun : ∀ c ∈ run, isBareChar c = true) (rest : List Char) :
    readRun (run ++ '\n' :: rest) = (run, '\n' :: rest) := by
  have htake : (run ++ '\n' :: rest).takeWhile isBareChar = run := by
    rw [List.takeWhile_append_of_pos hrun]
    simp [isBareChar]
  have hdrop : (run ++ '\n' :: rest).dropWhile isBareChar = '\n' :: rest := by
    rw [List.dropWhile_append_of_pos hrun]
    rfl
  rw [readRun, htake, hdrop]
  rfl

theorem readBareValue_integer {run : List Char} {i : Int} (hrun : ∀ c ∈ run, isBareChar c = true) (hi : readBare run = some (.integer i))
    (rest : List Char) : ∃ span, readBareValue (run ++ '\n' :: rest) = some (.integer i span, '\n' :: rest) := by
  refine ⟨⟨(run ++ '\n' :: rest).length, ('\n' :: rest).length⟩, ?_⟩
  rw [readBareValue, readRun_line hrun]
  dsimp only
  rw [hi]
  rfl

theorem readBareValue_boolean {run : List Char} {b : Bool} (hrun : ∀ c ∈ run, isBareChar c = true) (hb : readBare run = some (.boolean b))
    (rest : List Char) : ∃ span, readBareValue (run ++ '\n' :: rest) = some (.boolean b span, '\n' :: rest) := by
  refine ⟨⟨(run ++ '\n' :: rest).length, ('\n' :: rest).length⟩, ?_⟩
  rw [readBareValue, readRun_line hrun]
  dsimp only
  rw [hb]
  rfl

theorem isDigit_cases {c : Char} (h : c.isDigit = true) : '0' ≤ c ∧ c ≤ '9' := by
  unfold Char.isDigit at h
  simpa [Char.le_def] using h

theorem digitValue_of_isDigit {c : Char} (h : c.isDigit = true) : digitValue c = some (c.toNat - '0'.toNat) ∧ c.toNat - '0'.toNat < 10 := by
  have hc := isDigit_cases h
  refine ⟨if_pos hc, ?_⟩
  have hle : c.toNat ≤ '9'.toNat := hc.2
  have hnine : '9'.toNat = 57 := by decide
  have hzero : '0'.toNat = 48 := by decide
  omega

/-- A run of digits, without an underscore between them, is read digit by digit. -/
theorem digitRun_digits {cs : List Char} (hne : cs ≠ []) (h : ∀ c ∈ cs, c.isDigit = true) :
    digitRun 10 cs = some (cs.map fun c => c.toNat - '0'.toNat) := by
  induction cs with
  | nil => exact absurd rfl hne
  | cons c cs ih =>
    obtain ⟨hc, hcs⟩ := List.forall_mem_cons.1 h
    obtain ⟨hvalue, hlt⟩ := digitValue_of_isDigit hc
    cases cs with
    | nil =>
      rw [digitRun, hvalue, Option.bind_some, if_pos hlt]
      rfl
    | cons d ds =>
      have hd : d ≠ '_' := by
        rintro rfl
        exact absurd (hcs _ List.mem_cons_self) (by decide)
      have hrest := ih (List.cons_ne_nil _ _) hcs
      rw [digitRun.eq_def]
      split
      · next heq => cases heq
      · next heq => cases heq
      · next heq =>
        cases heq
        exact absurd rfl hd
      · next heq =>
        cases heq
        rw [hvalue, hrest]
        exact if_pos hlt

theorem ofDigits_toDigits (n : Nat) : ofDigits 10 ((Nat.toDigits 10 n).map fun c => c.toNat - '0'.toNat) = n := by
  have hdigits := Nat.ofDigitChars_toDigits (b := 10) (n := n) (by decide) (by decide)
  rw [Nat.ofDigitChars] at hdigits
  rw [ofDigits, List.foldl_map]
  simpa only [Nat.mul_comm] using hdigits

theorem readInteger_digits {c : Char} {cs : List Char} (hzero : c = '0' → cs = []) (hdigits : ∀ d ∈ c :: cs, d.isDigit = true) :
    readInteger (c :: cs) = inWord (ofDigits 10 ((c :: cs).map fun d => d.toNat - '0'.toNat)) := by
  have hc := hdigits c List.mem_cons_self
  have hsign : takeSign (c :: cs) = (false, c :: cs) := by
    rw [takeSign.eq_def]
    split
    · next heq =>
      cases heq
      exact absurd hc (by decide)
    · next heq =>
      cases heq
      exact absurd hc (by decide)
    · rfl
  have hwhole : wholeRun (c :: cs) = some ((c :: cs).map fun d => d.toNat - '0'.toNat) := by
    rw [wholeRun.eq_def]
    split
    · next heq =>
      cases heq
      cases hzero rfl
    · exact digitRun_digits (List.cons_ne_nil _ _) hdigits
  rw [readInteger.eq_def]
  split
  · next heq =>
    cases heq
    cases hzero rfl
  · next heq =>
    cases heq
    cases hzero rfl
  · next heq =>
    cases heq
    cases hzero rfl
  · rw [hsign]
    dsimp only
    rw [hwhole, Option.bind_some, if_neg (by decide)]

/-- The digits of a number that 64 bits hold with a sign read back as the number. -/
theorem readBare_toDigits {n : Nat} (h : n < 0x8000000000000000) : readBare (Nat.toDigits 10 n) = some (.integer n) := by
  have hword : inWord n = some (n : Int) := if_pos (by omega)
  have hvalue := ofDigits_toDigits n
  obtain ⟨c, cs, hcs⟩ : ∃ c cs, Nat.toDigits 10 n = c :: cs := List.exists_cons_of_ne_nil Nat.toDigits_ne_nil
  have hdigits : ∀ d ∈ c :: cs, d.isDigit = true := fun d hd => DigitsAux.isDigit_of_mem (hcs ▸ hd)
  have hzero : c = '0' → cs = [] := by
    rintro rfl
    rw [DigitsAux.eq_zero_of_toDigits hcs] at hcs
    exact (List.cons.inj hcs).2.symm
  have hinteger := readInteger_digits hzero hdigits
  rw [← hcs, hvalue, hword] at hinteger
  have hne {d : Char} (ds : List Char) (hd : d.isDigit = false) : Nat.toDigits 10 n ≠ d :: ds := by
    rintro heq
    cases hcs.symm.trans heq
    exact absurd (hdigits _ List.mem_cons_self) (by rw [hd]; decide)
  rw [readBare, if_neg (hne _ rfl), if_neg (hne _ rfl), hinteger]

/-! ## Lists -/

theorem quoted_append (s : String) (rest : List Char) : quoted s ++ rest = '"' :: (s.toList.flatMap escaped ++ '"' :: rest) := by
  simp [quoted]

theorem readValue_quoted (depth : Nat) (s : String) {rest : List Char} (h : rest.head? ≠ some '"') :
    ∃ span, readValue depth (quoted s ++ rest) = some (.string s span, rest) := by
  have hleaf : readValue depth (quoted s ++ rest) = readLeaf (quoted s ++ rest) := by
    rw [quoted_append]
    cases depth <;> rfl
  rw [hleaf]
  exact readLeaf_quoted s h

theorem dropFiller_quote (cs : List Char) : dropFiller false ('"' :: cs) = '"' :: cs :=
  rfl

theorem dropFiller_comma (cs : List Char) : dropFiller false (',' :: cs) = ',' :: cs :=
  rfl

theorem dropFiller_bracket (cs : List Char) : dropFiller false (']' :: cs) = ']' :: cs :=
  rfl

theorem dropFiller_space (cs : List Char) : dropFiller false (' ' :: cs) = dropFiller false cs :=
  rfl

theorem listed_cons_cons (s t : String) (ss : List String) : listed (s :: t :: ss) = quoted s ++ ',' :: ' ' :: listed (t :: ss) :=
  rfl

/-- Nothing is dropped in front of what is written for a list. -/
theorem dropFiller_listed (ss : List String) (rest : List Char) : dropFiller false (listed ss ++ ']' :: rest) = listed ss ++ ']' :: rest := by
  cases ss with
  | nil => exact dropFiller_bracket rest
  | cons s ss =>
    cases ss with
    | nil =>
      rw [listed, quoted_append]
      exact dropFiller_quote _
    | cons t ss =>
      rw [listed_cons_cons, List.append_assoc, quoted_append]
      exact dropFiller_quote _

/-- An item in front of a comma or of the closing bracket. -/
theorem readItems_quoted (depth steps : Nat) {cs rest : List Char} {s : String} (hcs : dropFiller false cs = quoted s ++ rest)
    (hrest : rest.head? ≠ some '"') :
    ∃ span, readItems (readValue depth) (steps + 1) cs =
      match dropFiller false rest with
      | ',' :: rest => do
        let (ns, rest) ← readItems (readValue depth) steps rest
        some (.string s span :: ns, rest)
      | ']' :: rest => some ([.string s span], rest)
      | _ => none := by
  obtain ⟨span, hspan⟩ := readValue_quoted depth s hrest
  refine ⟨span, ?_⟩
  rw [quoted_append] at hcs hspan
  rw [readItems, hcs]
  change Option.bind (readValue depth ('"' :: _)) _ = _
  rw [hspan]
  rfl

/-- What is written for a list is read as its strings. The induction is on the list. -/
theorem readItems_listed (depth : Nat) {steps : Nat} {ss : List String} {cs rest : List Char} (hsteps : ss.length < steps)
    (hcs : dropFiller false cs = listed ss ++ ']' :: rest) :
    ∃ items, readItems (readValue depth) steps cs = some (items, rest) ∧
      List.Forall₂ (fun s n => ∃ span, n = Node.string s span) ss items := by
  induction ss generalizing steps cs with
  | nil =>
    obtain ⟨steps, rfl⟩ := Nat.exists_eq_add_one_of_ne_zero (Nat.ne_of_gt hsteps)
    refine ⟨[], ?_, .nil⟩
    rw [readItems, hcs]
    rfl
  | cons s ss ih =>
    obtain ⟨steps, rfl⟩ := Nat.exists_eq_add_one_of_ne_zero (Nat.ne_of_gt (Nat.lt_of_le_of_lt (Nat.zero_le _) hsteps))
    cases ss with
    | nil =>
      obtain ⟨span, hread⟩ := readItems_quoted depth steps hcs (by simp)
      rw [dropFiller_bracket] at hread
      exact ⟨[.string s span], hread, .cons ⟨span, rfl⟩ .nil⟩
    | cons t ss =>
      rw [listed_cons_cons, List.append_assoc, List.cons_append, List.cons_append] at hcs
      obtain ⟨span, hread⟩ := readItems_quoted depth steps hcs (by simp)
      rw [dropFiller_comma] at hread
      obtain ⟨items, hitems, hall⟩ := ih (Nat.lt_of_succ_lt_succ hsteps)
        ((dropFiller_space _).trans (dropFiller_listed _ _))
      refine ⟨.string s span :: items, hread.trans ?_, .cons ⟨span, rfl⟩ hall⟩
      change Option.bind (readItems (readValue depth) steps (' ' :: _)) _ = _
      rw [hitems]
      rfl

/-! ## Any value -/

/-- A list has at least one character for each of its strings. -/
theorem length_listed (ss : List String) : ss.length ≤ (listed ss).length := by
  induction ss with
  | nil => exact Nat.le_refl _
  | cons s ss ih =>
    cases ss with
    | nil => simp [listed, quoted]
    | cons t ss =>
      rw [listed_cons_cons]
      simp only [List.length_cons, List.length_append] at ih ⊢
      omega

theorem readValue_list (depth : Nat) (ss : List String) (rest : List Char) :
    ∃ items span, readValue (depth + 1) ('[' :: listed ss ++ ']' :: rest) = some (.array items span, rest) ∧
      List.Forall₂ (fun s n => ∃ span, n = Node.string s span) ss items := by
  have hlength := length_listed ss
  have hsteps : ss.length < (listed ss ++ ']' :: rest).length + 1 := by
    rw [List.length_append]
    omega
  obtain ⟨items, hitems, hall⟩ := readItems_listed depth hsteps (dropFiller_listed ss rest)
  refine ⟨items, ⟨('[' :: (listed ss ++ ']' :: rest)).length, rest.length⟩, ?_, hall⟩
  rw [List.cons_append, readValue, hitems]
  rfl

theorem readValue_bare (depth : Nat) {c : Char} (cs : List Char) (hbracket : c ≠ '[') (hbrace : c ≠ '\x7b') (hquote : c ≠ '"')
    (happostrophe : c ≠ '\'') : readValue depth (c :: cs) = readBareValue (c :: cs) := by
  have hleaf : readLeaf (c :: cs) = readBareValue (c :: cs) := by
    rw [readLeaf.eq_def]
    split <;> simp_all
  rw [← hleaf]
  cases depth with
  | zero => rfl
  | succ depth =>
    rw [readValue.eq_def]
    split <;> simp_all

/-- The digits of a number start a bare value. -/
theorem readValue_digits (depth : Nat) {n : Nat} (h : n < 0x8000000000000000) (rest : List Char) :
    ∃ span, readValue depth (Nat.toDigits 10 n ++ '\n' :: rest) = some (.integer n span, '\n' :: rest) := by
  have hdigits : ∀ c ∈ Nat.toDigits 10 n, c.isDigit = true := fun c => DigitsAux.isDigit_of_mem
  have hbare : ∀ c ∈ Nat.toDigits 10 n, isBareChar c = true := by
    intro c hc
    simp [isBareChar, Char.isAlphanum, hdigits c hc]
  obtain ⟨span, hspan⟩ := readBareValue_integer hbare (readBare_toDigits h) rest
  obtain ⟨c, cs, hcs⟩ : ∃ c cs, Nat.toDigits 10 n = c :: cs := List.exists_cons_of_ne_nil Nat.toDigits_ne_nil
  have hc := hdigits c (by rw [hcs]; exact List.mem_cons_self)
  have hne {d : Char} (hd : d.isDigit = false) : c ≠ d := by
    rintro rfl
    exact Bool.noConfusion (hc.symm.trans hd)
  refine ⟨span, ?_⟩
  rw [← hspan, hcs]
  exact readValue_bare depth _ (hne rfl) (hne rfl) (hne rfl) (hne rfl)

theorem readValue_flag (depth : Nat) (b : Bool) (rest : List Char) :
    ∃ span, readValue depth ((Item.flag b).chars ++ '\n' :: rest) = some (.boolean b span, '\n' :: rest) := by
  cases b with
  | true =>
    have hrun : ∀ c ∈ ['t', 'r', 'u', 'e'], isBareChar c = true := List.all_eq_true.1 (by decide)
    obtain ⟨span, hspan⟩ := readBareValue_boolean hrun rfl rest
    exact ⟨span, (readValue_bare depth _ (by decide) (by decide) (by decide) (by decide)).trans hspan⟩
  | false =>
    have hrun : ∀ c ∈ ['f', 'a', 'l', 's', 'e'], isBareChar c = true := List.all_eq_true.1 (by decide)
    obtain ⟨span, hspan⟩ := readBareValue_boolean hrun rfl rest
    exact ⟨span, (readValue_bare depth _ (by decide) (by decide) (by decide) (by decide)).trans hspan⟩

/-- What is written for a value is read as the value, up to the end of its line. -/
theorem readValue_chars {item : Item} (h : item.Writable) (depth : Nat) (rest : List Char) :
    ∃ n, readValue (depth + 1) (item.chars ++ '\n' :: rest) = some (n, '\n' :: rest) ∧ item.Is n := by
  cases item with
  | text s =>
    have hend : ('\n' :: rest).head? ≠ some '"' := by simp
    obtain ⟨span, hspan⟩ := readValue_quoted (depth + 1) s hend
    exact ⟨_, hspan, span, rfl⟩
  | number i =>
    obtain ⟨span, hspan⟩ := readValue_digits (depth + 1) h rest
    exact ⟨_, hspan, span, rfl⟩
  | flag b =>
    obtain ⟨span, hspan⟩ := readValue_flag (depth + 1) b rest
    exact ⟨_, hspan, span, rfl⟩
  | texts ss =>
    obtain ⟨items, span, hread, hall⟩ := readValue_list depth ss ('\n' :: rest)
    refine ⟨_, ?_, items, span, rfl, hall⟩
    rw [← hread, Item.chars]
    simp

/-- What is written for a value does not start with a space. -/
theorem dropSpace_chars (item : Item) (rest : List Char) : dropSpace (item.chars ++ rest) = item.chars ++ rest := by
  obtain ⟨c, cs, hcs, hc⟩ : ∃ c cs, item.chars = c :: cs ∧ isSpace c = false := by
    cases item with
    | text s => exact ⟨'"', s.toList.flatMap escaped ++ ['"'], rfl, by decide⟩
    | number n =>
      obtain ⟨c, cs, hcs⟩ : ∃ c cs, Nat.toDigits 10 n = c :: cs := List.exists_cons_of_ne_nil Nat.toDigits_ne_nil
      have hdigit : c.isDigit = true := DigitsAux.isDigit_of_mem (n := n) (hcs ▸ List.mem_cons_self)
      refine ⟨c, cs, hcs, ?_⟩
      rw [isSpace, Bool.or_eq_false_iff, beq_eq_false_iff_ne, beq_eq_false_iff_ne]
      constructor
      · rintro rfl
        cases hdigit
      · rintro rfl
        cases hdigit
    | flag b => cases b <;> exact ⟨_, _, rfl, by decide⟩
    | texts ss => exact ⟨'[', listed ss ++ [']'], rfl, by decide⟩
  rw [hcs, List.cons_append, dropSpace, List.dropWhile_cons_of_neg (by rw [hc]; decide)]

end BootDisk.Toml
