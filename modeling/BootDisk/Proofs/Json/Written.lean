import Mathlib.Data.List.Forall2
import BootDisk.Json.Pretty
import BootDisk.Json.Reader
import BootDisk.Proofs.Basic
import BootDisk.Proofs.Text.Digits

/-!
# What is written reads back

A text in the indented layout is read as the value that it was written for (`ReadsAs`): strings, truth values, numbers of 64 bits, lists
of such values, and records, whatever their fields hold and however deep they stand. For a record it is enough that its members are read
into it one after the other (`Shape.readsAs_object`).
-/

namespace BootDisk.Json

/-! ## Strings -/

theorem consRead_ok {c : Char} {s rest : List Char} : consRead c (.ok (s, rest)) = .ok (c :: s, rest) :=
  rfl

theorem readChars_short {e c : Char} (he : e ≠ 'u') (h : shortEscape e = some c) (rest : List Char) :
    readChars ('\\' :: e :: rest) = consRead c (readChars rest) := by
  rw [readChars.eq_def]
  split <;> grind

theorem readChars_plain {c : Char} (hquote : c ≠ '"') (hbackslash : c ≠ '\\') (hspace : ¬ c < ' ') (rest : List Char) :
    readChars (c :: rest) = consRead c (readChars rest) := by
  rw [readChars.eq_def]
  split <;> grind

/-- The number of a character that is no half of a pair is read by itself, also if another number follows. -/
theorem readChars_number {a b c d : Char} {n : Nat} (h : hexNumber a b c d = some n) (hhalf : n < 0xD800) (rest : List Char) :
    readChars ('\\' :: 'u' :: a :: b :: c :: d :: rest) = consRead (Char.ofNat n) (readChars rest) := by
  have hhigh : isHighHalf n = false := by simp [isHighHalf]; omega
  have hlow : isLowHalf n = false := by simp [isLowHalf]; omega
  rw [readChars.eq_def]
  split <;> grind

theorem hexValue_digitChar : ∀ d < 16, hexValue (Nat.digitChar d) = some d := by
  decide

theorem hexNumber_twoHexDigits {n : Nat} (h : n < 32) : hexNumber '0' '0' (Nat.digitChar (n / 16)) (Nat.digitChar (n % 16)) = some n := by
  have hhigh := hexValue_digitChar (n / 16) (by omega)
  have hlow := hexValue_digitChar (n % 16) (by omega)
  have hzero : hexValue '0' = some 0 := rfl
  simp only [hexNumber, hzero, hhigh, hlow]
  exact congrArg some (by omega)

/-- A character is written as a letter behind a backslash, by its number, or as it is. -/
theorem escapeChar_cases (c : Char) :
    (∃ e, escapeChar c = ['\\', e] ∧ e ≠ 'u' ∧ shortEscape e = some c) ∨
      (c.toNat < 32 ∧ escapeChar c = '\\' :: 'u' :: '0' :: '0' :: twoHexDigits c.toNat) ∨
      (c ≠ '"' ∧ c ≠ '\\' ∧ ¬ c < ' ' ∧ escapeChar c = [c]) := by
  unfold escapeChar
  -- the characters with a letter of their own
  iterate 7
    split
    · next h => exact Or.inl ⟨_, rfl, by decide, by rw [beq_iff_eq.1 h]; rfl⟩
  split
  · next h =>
    have hlt : c.toNat < ' '.toNat := h
    exact Or.inr (Or.inl ⟨hlt, rfl⟩)
  · next h => exact Or.inr (Or.inr ⟨by simp_all, by simp_all, h, rfl⟩)

/-- What is written for a character is read as the character. -/
theorem readChars_escapeChar (c : Char) (rest : List Char) : readChars (escapeChar c ++ rest) = consRead c (readChars rest) := by
  rcases escapeChar_cases c with ⟨e, hwritten, he, hshort⟩ | ⟨hlt, hwritten⟩ | ⟨hquote, hbackslash, hspace, hwritten⟩
  · rw [hwritten]
    exact readChars_short he hshort rest
  · rw [hwritten, twoHexDigits]
    have hnumber := readChars_number (hexNumber_twoHexDigits hlt) (by omega) rest
    rwa [Char.ofNat_toNat] at hnumber
  · rw [hwritten]
    exact readChars_plain hquote hbackslash hspace rest

theorem readChars_flatMap (cs rest : List Char) : readChars (cs.flatMap escapeChar ++ '"' :: rest) = .ok (cs, rest) := by
  induction cs with
  | nil => rfl
  | cons c cs ih => rw [List.flatMap_cons, List.append_assoc, readChars_escapeChar, ih, consRead_ok]

/-! ## Blanks -/

/-- A text that starts with a character that is not passed over, and that closes no list. -/
def opens : List Char → Bool
  | [] => false
  | c :: _ => !(c == ' ' || c == '\n' || c == '\t' || c == '\r' || c == ']')

/-- Nothing, a comma or a new line comes next. -/
def stops : List Char → Bool
  | [] => true
  | c :: _ => c == ',' || c == '\n'

variable {text more rest cs : List Char} {level : Nat}

theorem dropBlank_of_opens (h : opens text = true) (more : List Char) : dropBlank (text ++ more) = text ++ more := by
  cases text with
  | nil => cases h
  | cons c cs =>
    simp only [opens, Bool.not_eq_true', Bool.or_eq_false_iff] at h
    simp [dropBlank, h]

theorem dropBlank_space (cs : List Char) : dropBlank (' ' :: cs) = dropBlank cs :=
  rfl

/-- A new line and the spaces in front of it are passed over. -/
theorem dropBlank_line (level : Nat) (cs : List Char) : dropBlank ('\n' :: (indentation level ++ cs)) = dropBlank cs := by
  have hspaces : ∀ n, dropBlank (List.replicate n ' ' ++ cs) = dropBlank cs := by
    intro n
    induction n with
    | zero => rfl
    | succ n ih => exact ih
  exact hspaces (2 * level)

/-! ## Values -/

/-- A text that is read as a value, from wherever it is what comes next, if a comma or a new line follows. -/
structure ReadsAs {α : Type} (read : Reader α) (text : List Char) (a : α) : Prop where
  opens : opens text = true
  reads : ∀ cs rest, stops rest = true → dropBlank cs = text ++ rest → read cs = .ok (a, rest)

section Values

variable {α β : Type} {read : Reader α} {a : α}

/-- What is made of a value that is read is read with it. -/
theorem ReadsAs.map (h : ReadsAs read text a) (f : α → β) :
    ReadsAs (fun cs => (read cs).map fun (a, rest) => (f a, rest)) text (f a) where
  opens := h.opens
  reads := by
    intro cs rest hstops hcs
    dsimp only
    rw [h.reads cs rest hstops hcs]
    rfl

theorem readsAs_string (expected : Expected) (s : String) : ReadsAs (readString expected) (stringText s) s where
  opens := rfl
  reads := by
    intro cs rest _ hcs
    have hquoted : dropBlank cs = '"' :: (s.toList.flatMap escapeChar ++ '"' :: rest) := by
      rw [hcs]
      simp [stringText]
    rw [readString, hquoted]
    change (readChars (s.toList.flatMap escapeChar ++ '"' :: rest)).map _ = _
    rw [readChars_flatMap]
    exact congrArg (fun s => Except.ok (s, rest)) String.ofList_toList

theorem readsAs_boolean (b : Bool) : ReadsAs readBoolean (booleanText b) b where
  opens := by cases b <;> rfl
  reads := by
    intro cs rest _ hcs
    rw [readBoolean, hcs]
    cases b <;> rfl

/-! ## Numbers -/

theorem le_ofDigitChars (ds : List Char) (n : Nat) : n ≤ Nat.ofDigitChars 10 ds n := by
  rw [Nat.ofDigitChars_eq_ofDigitChars_zero]
  exact Nat.le_add_right_of_le (Nat.le_mul_of_pos_left n (Nat.pow_pos (by decide)))

/-- Digits are all taken, if the number that they denote fits and something else follows. -/
theorem takeDigits_append {ds : List Char} {n : Nat} (hdigits : ∀ d ∈ ds, d.isDigit = true) (hbound : Nat.ofDigitChars 10 ds n < wordBound)
    (hrest : (rest.head?.map Char.isDigit).getD false = false) (taken : Nat) :
    takeDigits n taken (ds ++ rest) = (Nat.ofDigitChars 10 ds n, taken + ds.length, rest) := by
  induction ds generalizing n taken with
  | nil =>
    cases rest with
    | nil => rfl
    | cons c cs =>
      have hc : c.isDigit = false := by simpa using hrest
      rw [List.nil_append, takeDigits, hc]
      rfl
  | cons d ds ih =>
    obtain ⟨hd, hds⟩ := List.forall_mem_cons.1 hdigits
    rw [Nat.ofDigitChars_cons, Nat.mul_comm] at hbound ⊢
    have hfits : n * 10 + (d.toNat - '0'.toNat) < wordBound := Nat.lt_of_le_of_lt (le_ofDigitChars ds _) hbound
    rw [List.cons_append, takeDigits, if_pos hd]
    dsimp only
    rw [if_pos hfits, ih hds hbound, List.length_cons, Nat.add_assoc, Nat.add_comm 1]

theorem stops_cases (h : stops rest = true) : rest = [] ∨ ∃ cs, rest = ',' :: cs ∨ rest = '\n' :: cs := by
  cases rest with
  | nil => exact Or.inl rfl
  | cons c cs =>
    simp only [stops, Bool.or_eq_true, beq_iff_eq] at h
    exact Or.inr ⟨cs, by simpa using h⟩

/-- What a number stops at is no part of it. -/
theorem readTail_of_stops (h : stops rest = true) (n : Nat) : readTail false n 0 rest = .ok (.whole n, rest) := by
  obtain rfl | ⟨cs, rfl | rfl⟩ := stops_cases h <;> rfl

theorem head?_of_stops (h : stops rest = true) : (rest.head?.map Char.isDigit).getD false = false := by
  obtain rfl | ⟨cs, rfl | rfl⟩ := stops_cases h <;> rfl

theorem takeWhile_of_stops (h : stops rest = true) : rest.takeWhile Char.isDigit = [] ∧ rest.dropWhile Char.isDigit = rest := by
  obtain rfl | ⟨cs, rfl | rfl⟩ := stops_cases h <;> exact ⟨rfl, rfl⟩

theorem readUnsigned_toDigits {n : Nat} (hn : n < wordBound) (h : stops rest = true) :
    readUnsigned false (Nat.toDigits 10 n ++ rest) = .ok (.whole n, rest) := by
  have hhead := head?_of_stops h
  obtain ⟨htaken, hdropped⟩ := takeWhile_of_stops h
  rcases DigitsAux.toDigits_cases n with rfl | ⟨c, cs, hcs, hc⟩
  · rw [Nat.toDigits_zero, List.singleton_append, readUnsigned, if_neg (by simp [hhead])]
    exact readTail_of_stops h 0
  · have htake : takeDigits 0 0 (Nat.toDigits 10 n ++ rest) = (n, (Nat.toDigits 10 n).length, rest) := by
      have hbound : Nat.ofDigitChars 10 (Nat.toDigits 10 n) 0 < wordBound := by rwa [Nat.ofDigitChars_ten_toDigits]
      rw [takeDigits_append (fun _ => DigitsAux.isDigit_of_mem) hbound hhead, Nat.ofDigitChars_ten_toDigits, Nat.zero_add]
    rw [hcs] at htake ⊢
    rw [readUnsigned.eq_def]
    split
    · next heq =>
      cases heq
      exact absurd rfl hc
    · rw [htake]
      dsimp only
      rw [if_neg (by simp), htaken, hdropped]
      exact readTail_of_stops h n

theorem exists_digit_wordText (n : Nat) : ∃ c cs, wordText n = c :: cs ∧ c.isDigit = true := by
  obtain ⟨c, cs, hcs⟩ : ∃ c cs, wordText n = c :: cs := List.exists_cons_of_ne_nil Nat.toDigits_ne_nil
  refine ⟨c, cs, hcs, DigitsAux.isDigit_of_mem (n := n) ?_⟩
  rw [← wordText, hcs]
  exact List.mem_cons_self

theorem ne_of_isDigit {c d : Char} (hc : c.isDigit = true) (hd : d.isDigit = false) : c ≠ d := by
  rintro rfl
  rw [hc] at hd
  cases hd

theorem opens_wordText (n : Nat) : opens (wordText n) = true := by
  obtain ⟨c, cs, hcs, hc⟩ := exists_digit_wordText n
  rw [hcs]
  simp [opens, ne_of_isDigit hc (d := ' ') rfl, ne_of_isDigit hc (d := '\n') rfl, ne_of_isDigit hc (d := '\t') rfl,
    ne_of_isDigit hc (d := '\r') rfl, ne_of_isDigit hc (d := ']') rfl]

theorem readsAs_word (n : UInt64) : ReadsAs readWord (wordText n.toNat) n where
  opens := opens_wordText n.toNat
  reads := by
    intro cs' rest hstops hcs'
    obtain ⟨c, cs, hcs, hdigit⟩ := exists_digit_wordText n.toNat
    have hnumber : readNumber (wordText n.toNat ++ rest) = .ok (.whole n.toNat, rest) := by
      have hunsigned := readUnsigned_toDigits n.toNat_lt hstops
      change readUnsigned false (wordText n.toNat ++ rest) = _ at hunsigned
      rw [readNumber.eq_def]
      split
      · next heq =>
        rw [hcs] at heq
        exact absurd (List.cons.inj heq).1 (ne_of_isDigit hdigit rfl)
      · exact hunsigned
    have hhead : (((wordText n.toNat ++ rest).head?.map fun c => c == '-' || c.isDigit).getD false) = true := by
      rw [hcs]
      simp [hdigit]
    rw [readWord, hcs', if_pos hhead, hnumber]
    simp only [UInt64.ofNat_toNat]

/-! ## Lines in brackets -/

/-- What stands behind an item in brackets: a comma and the other items, each on a line of its own, and the closing bracket. -/
def behind (level : Nat) (closing : Char) (rest : List Char) : List (List Char) → List Char
  | [] => '\n' :: (indentation level ++ closing :: rest)
  | item :: items => ',' :: '\n' :: (indentation (level + 1) ++ (item ++ behind level closing rest items))

variable {closing : Char} {item : List Char} {items : List (List Char)}

theorem lines_append (level : Nat) (closing : Char) (rest item : List Char) (items : List (List Char)) :
    lines (level + 1) (item :: items) ++ '\n' :: (indentation level ++ closing :: rest) =
      '\n' :: (indentation (level + 1) ++ (item ++ behind level closing rest items)) := by
  induction items generalizing item with
  | nil => simp [lines, behind]
  | cons item' items ih =>
    rw [behind, ← ih item']
    simp [lines]

theorem bracketed_cons (level : Nat) (opening closing : Char) (item : List Char) (items : List (List Char)) (rest : List Char) :
    bracketed level opening closing (item :: items) ++ rest =
      opening :: '\n' :: (indentation (level + 1) ++ (item ++ behind level closing rest items)) := by
  rw [← lines_append]
  simp [bracketed]

theorem stops_behind (level : Nat) (closing : Char) (rest : List Char) (items : List (List Char)) :
    stops (behind level closing rest items) = true := by
  cases items <;> rfl

/-- There are no more items than characters. -/
theorem length_le_behind (level : Nat) (closing : Char) (rest : List Char) (items : List (List Char)) :
    items.length ≤ (behind level closing rest items).length := by
  induction items with
  | nil => exact Nat.zero_le _
  | cons item items ih =>
    simp only [behind, List.length_cons, List.length_append]
    omega

/-! ## Lists -/

theorem eq_cons_of_opens (h : opens text = true) : ∃ c cs, text = c :: cs ∧ c ≠ ']' := by
  cases text with
  | nil => cases h
  | cons c cs =>
    refine ⟨c, cs, rfl, ?_⟩
    rintro rfl
    cases h

theorem nextElement_first (h : opens item = true) (level : Nat) (more : List Char) :
    nextElement true ('\n' :: (indentation level ++ (item ++ more))) = .ok (.element (item ++ more)) := by
  rw [nextElement, dropBlank_line, dropBlank_of_opens h]
  obtain ⟨c, cs, rfl, hc⟩ := eq_cons_of_opens h
  split <;> simp_all

theorem nextElement_comma (h : opens item = true) (hcs : dropBlank cs = item ++ more) :
    nextElement false (',' :: cs) = .ok (.element (item ++ more)) := by
  have hcomma : dropBlank (',' :: cs) = ',' :: cs := rfl
  obtain ⟨c, cs', rfl, hc⟩ := eq_cons_of_opens h
  rw [nextElement, hcomma]
  split <;> grind

theorem nextElement_behind (h : opens item = true) (level : Nat) (rest : List Char) (items : List (List Char)) :
    nextElement false (behind level ']' rest (item :: items)) = .ok (.element (item ++ behind level ']' rest items)) :=
  nextElement_comma h (by rw [dropBlank_line, dropBlank_of_opens h])

theorem nextElement_done (level : Nat) (rest : List Char) : nextElement false (behind level ']' rest []) = .ok (.done rest) := by
  rw [behind, nextElement, dropBlank_line]
  rfl

/-- An element that comes next is read, and the others behind it. -/
theorem readElements_of_next {first : Bool} {steps : Nat} {as : List α} (hnext : nextElement first cs = .ok (.element text))
    (hread : read text = .ok (a, more)) (hmore : readElements read steps false more = .ok (as, rest)) :
    readElements read (steps + 1) first cs = .ok (a :: as, rest) := by
  rw [readElements, hnext]
  change (read text >>= _) = _
  rw [hread]
  change (readElements read steps false more >>= _) = _
  rw [hmore]
  rfl

/-- The elements behind another one are read one after the other. -/
theorem readElements_behind {texts : List (List Char)} {as : List α} (h : List.Forall₂ (ReadsAs read) texts as) (level : Nat)
    {steps : Nat} (hsteps : texts.length < steps) (rest : List Char) :
    readElements read steps false (behind level ']' rest texts) = .ok (as, rest) := by
  induction h generalizing steps with
  | nil =>
    cases steps with
    | zero => cases hsteps
    | succ steps =>
      rw [readElements, nextElement_done]
      rfl
  | @cons text a texts as hread _ ih =>
    cases steps with
    | zero => cases hsteps
    | succ steps =>
      have hitem := hread.reads _ _ (stops_behind level ']' rest texts) (dropBlank_of_opens hread.opens _)
      exact readElements_of_next (nextElement_behind hread.opens level rest texts) hitem (ih (Nat.lt_of_succ_lt_succ hsteps))

theorem readsAs_list {texts : List (List Char)} {as : List α} (h : List.Forall₂ (ReadsAs read) texts as) (level : Nat) :
    ReadsAs (readList read) (arrayText level texts) as where
  opens := by
    cases h <;> rfl
  reads := by
    intro cs rest hstops hcs
    cases h with
    | nil =>
      have hempty : dropBlank cs = '[' :: ']' :: rest := hcs
      rw [readList, hempty]
      rfl
    | @cons text a texts as hread hrest =>
      rw [arrayText, bracketed_cons] at hcs
      rw [readList, hcs]
      have hitem := hread.reads _ _ (stops_behind level ']' rest texts) (dropBlank_of_opens hread.opens _)
      refine readElements_of_next (nextElement_first hread.opens (level + 1) _) hitem (readElements_behind hrest level ?_ rest)
      have := length_le_behind level ']' rest texts
      simp only [List.length_cons, List.length_append]
      omega

end Values

/-! ## Records -/

/-- A member as it is written, behind the quote that it starts with. -/
def memberChars (m : String × List Char) : List Char :=
  m.1.toList.flatMap escapeChar ++ '"' :: ':' :: ' ' :: m.2

theorem readChars_memberChars (m : String × List Char) (more : List Char) :
    readChars (memberChars m ++ more) = .ok (m.1.toList, ':' :: ' ' :: (m.2 ++ more)) := by
  rw [← readChars_flatMap]
  simp [memberChars]

theorem objectText_eq (level : Nat) (members : List (String × List Char)) :
    objectText level members = bracketed level '\x7b' '\x7d' (members.map fun m => '"' :: memberChars m) := by
  simp [objectText, memberChars, stringText]

theorem nextKey_first (level : Nat) (item more : List Char) :
    nextKey true ('\n' :: (indentation level ++ ('"' :: item ++ more))) = .ok (.element (item ++ more)) := by
  rw [nextKey, dropBlank_line]
  rfl

theorem nextKey_behind (level : Nat) (rest item : List Char) (items : List (List Char)) :
    nextKey false (behind level '\x7d' rest (('"' :: item) :: items)) = .ok (.element (item ++ behind level '\x7d' rest items)) := by
  have hcomma : dropBlank (behind level '\x7d' rest (('"' :: item) :: items)) =
      ',' :: '\n' :: (indentation (level + 1) ++ '"' :: (item ++ behind level '\x7d' rest items)) := rfl
  have hquote : dropBlank ('\n' :: (indentation (level + 1) ++ '"' :: (item ++ behind level '\x7d' rest items))) =
      '"' :: (item ++ behind level '\x7d' rest items) := dropBlank_line (level + 1) _
  rw [nextKey, hcomma]
  split <;> grind

theorem nextKey_done (level : Nat) (rest : List Char) : nextKey false (behind level '\x7d' rest []) = .ok (.done rest) := by
  rw [behind, nextKey, dropBlank_line]
  rfl

namespace Shape

variable {σ α : Type} {s : Shape σ α} {r r' : σ} {m : Member σ} {name : String} {value : List Char}

/-- A member that comes next is read into the record, and the others behind it. -/
theorem readMembers_of_next {first : Bool} {steps : Nat} (hnext : nextKey first cs = .ok (.element (memberChars (name, value) ++ more)))
    (hfind : (s.members.find? fun m => m.name == name) = some m) (hgiven : m.given r = false) (hread : ReadsAs (m.read r) value r')
    (hstops : stops more = true) :
    s.readMembers (steps + 1) first r cs = s.readMembers steps false r' more := by
  have hvalue : m.read r (' ' :: (value ++ more)) = .ok (r', more) := by
    refine hread.reads _ more hstops ?_
    rw [dropBlank_space, dropBlank_of_opens hread.opens]
  rw [readMembers, hnext]
  change (readChars (memberChars (name, value) ++ more) >>= _) = _
  rw [readChars_memberChars]
  simp only [bind, Except.bind, String.ofList_toList, hfind, hgiven, Bool.false_eq_true, if_false]
  change (m.read r (' ' :: (value ++ more)) >>= fun (r, rest) => s.readMembers steps false r rest) = _
  rw [hvalue]
  rfl

/-- The first member is read behind the opening brace as it would be behind a comma. -/
theorem readMembers_first (s : Shape σ α) (steps : Nat) (r : σ) (level : Nat) (item : List Char) (items : List (List Char)) :
    s.readMembers steps true r ('\n' :: (indentation (level + 1) ++ ('"' :: item ++ behind level '\x7d' rest items))) =
      s.readMembers steps false r (behind level '\x7d' rest (('"' :: item) :: items)) := by
  cases steps with
  | zero => rfl
  | succ steps => rw [readMembers, readMembers, nextKey_first, nextKey_behind]

/-- An object is read as what the record comes to into which its members are read. -/
theorem readsAs_object {members : List (String × List Char)} {a : α} (level : Nat)
    (hmembers : ∀ steps rest, members.length < steps →
      s.readMembers steps false s.blank (behind level '\x7d' rest (members.map fun m => '"' :: memberChars m)) = .ok (r, rest))
    (hcomplete : s.complete r = .ok a) : ReadsAs s.read (objectText level members) a where
  opens := by
    cases members <;> rfl
  reads := by
    intro cs rest hstops hcs
    have hobject {more : List Char} (hcs : dropBlank cs = '\x7b' :: more)
        (hread : s.readMembers (more.length + 1) true s.blank more = .ok (r, rest)) : s.read cs = .ok (a, rest) := by
      rw [read, hcs]
      change (s.readMembers (more.length + 1) true s.blank more >>= fun (r, rest) => s.complete r >>= fun a => .ok (a, rest)) = _
      rw [hread]
      change (s.complete r >>= fun a => .ok (a, rest)) = _
      rw [hcomplete]
      rfl
    cases members with
    | nil =>
      have hnone := hmembers 1 rest Nat.one_pos
      rw [List.map_nil, readMembers, nextKey_done] at hnone
      cases hnone
      exact hobject hcs rfl
    | cons m members =>
      rw [objectText_eq, List.map_cons, bracketed_cons] at hcs
      refine hobject hcs ?_
      rw [readMembers_first]
      refine hmembers _ rest ?_
      have hitems := length_le_behind level '\x7d' rest (members.map fun m => '"' :: memberChars m)
      rw [List.length_map] at hitems
      simp only [List.length_cons, List.length_append]
      omega

/-- A text that is read as a record, and is nothing else, holds that record. -/
theorem readAll_of_readsAs {text : String} {a : α} (h : ReadsAs s.read text.toList a) : s.readAll text = .ok a := by
  have hread : s.read text.toList = .ok (a, []) := by
    refine h.reads _ [] rfl ?_
    have hdrop := dropBlank_of_opens h.opens []
    rwa [List.append_nil] at hdrop ⊢
  rw [Shape.readAll, hread]
  rfl

end Shape

end BootDisk.Json
