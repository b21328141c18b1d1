import Mathlib.Data.List.DropRight
import Mathlib.Data.List.Nodup
import BootDisk.Proofs.Json.Written

/-!
# Every form of a record

A record may be given as an object with its fields in any order, and with other keys between them, or as an array of its fields in their
order (`Form`). All of these are read as the same value, if each field is read as the value's (`Shape.Gives`). What is given for other keys
is passed over, whatever it is (`IsValue`).
-/

namespace BootDisk.Json

variable {text more rest cs item : List Char} {items : List (List Char)} {level levels steps : Nat}

/-! ## Values that are passed over -/

/-- Texts of values of every kind, in the indented layout. -/
inductive IsValue : List Char → Prop where
  | null : IsValue ['n', 'u', 'l', 'l']
  | boolean (b : Bool) : IsValue (booleanText b)
  | word (n : Nat) : IsValue (wordText n)
  | string (s : String) : IsValue (stringText s)
  | array (level : Nat) {items : List (List Char)} : (∀ item ∈ items, IsValue item) → IsValue (arrayText level items)
  | object (level : Nat) {members : List (String × List Char)} : (∀ m ∈ members, IsValue m.2) → IsValue (objectText level members)

/-- A text that is passed over as a value, from wherever it is what comes next, if a comma or a new line follows. -/
structure Skips (text : List Char) : Prop where
  opens : opens text = true
  skips : ∀ levels cs rest, text.length ≤ levels → stops rest = true → dropBlank cs = text ++ rest →
    skipValue (levels + 1) cs = .ok rest

/-- It is passed over with any number of levels that is above its length. -/
theorem Skips.skipValue_eq (h : Skips text) (hlevels : text.length < levels) (hstops : stops rest = true)
    (hcs : dropBlank cs = text ++ rest) : skipValue levels cs = .ok rest := by
  obtain ⟨levels, rfl⟩ := Nat.exists_eq_add_one_of_ne_zero (Nat.ne_of_gt (Nat.zero_lt_of_lt hlevels))
  exact h.skips levels cs rest (Nat.le_of_lt_succ hlevels) hstops hcs

theorem dropBlank_dropBlank (cs : List Char) : dropBlank (dropBlank cs) = dropBlank cs :=
  List.dropWhile_idempotent _ cs

/-- A value is passed over from where it is what comes next. -/
theorem skipValue_dropBlank (levels : Nat) (cs : List Char) : skipValue (levels + 1) cs = skipValue (levels + 1) (dropBlank cs) := by
  simp only [skipValue, dropBlank_dropBlank]

theorem skips_null : Skips ['n', 'u', 'l', 'l'] where
  opens := rfl
  skips := by
    intro levels cs rest _ _ hcs
    rw [skipValue_dropBlank, hcs]
    rfl

theorem skips_boolean (b : Bool) : Skips (booleanText b) where
  opens := by
    cases b <;> rfl
  skips := by
    intro levels cs rest _ _ hcs
    rw [skipValue_dropBlank, hcs]
    cases b <;> rfl

theorem skipDigits_append {ds : List Char} (hne : ds ≠ []) (hdigits : ∀ d ∈ ds, d.isDigit = true) (h : stops rest = true) :
    skipDigits (ds ++ rest) = .ok rest := by
  obtain ⟨d, ds', rfl⟩ := List.exists_cons_of_ne_nil hne
  have hhead : (((d :: ds' ++ rest).head?.map Char.isDigit).getD false) = true := by simp [hdigits d List.mem_cons_self]
  rw [skipDigits, if_pos hhead, List.dropWhile_append_of_pos hdigits, (takeWhile_of_stops h).2]

theorem skipUnsigned_toDigits (n : Nat) (h : stops rest = true) : skipUnsigned (Nat.toDigits 10 n ++ rest) = .ok rest := by
  rcases DigitsAux.toDigits_cases n with rfl | ⟨c, cs, hcs, hc⟩
  · rw [Nat.toDigits_zero, List.singleton_append, skipUnsigned, if_neg (by simp [head?_of_stops h])]
    obtain rfl | ⟨cs, rfl | rfl⟩ := stops_cases h <;> rfl
  · have hskip : skipDigits (Nat.toDigits 10 n ++ rest) = .ok rest :=
      skipDigits_append Nat.toDigits_ne_nil (fun _ => DigitsAux.isDigit_of_mem) h
    rw [hcs] at hskip ⊢
    rw [skipUnsigned.eq_def]
    split
    · next heq =>
      cases heq
      exact absurd rfl hc
    · rw [hskip]
      obtain rfl | ⟨cs, rfl | rfl⟩ := stops_cases h <;> rfl

theorem skips_word (n : Nat) : Skips (wordText n) where
  opens := opens_wordText n
  skips := by
    intro levels cs rest _ hstops hcs
    obtain ⟨c, cs', hword, hdigit⟩ := exists_digit_wordText n
    have hhead {d : Char} {ds : List Char} (heq : dropBlank cs = d :: ds) : d.isDigit = true := by
      rw [hcs, hword] at heq
      cases heq
      exact hdigit
    rw [skipValue.eq_def]
    dsimp only
    split
    case h_8 => exact hcs ▸ skipUnsigned_toDigits n hstops
    -- no value of another kind starts with a digit
    all_goals
      next heq => exact absurd (hhead heq) (by decide)

theorem consRead_eq_ok {c : Char} {r : Except Error (List Char × List Char)} {s : List Char} (h : consRead c r = .ok (s, rest)) :
    ∃ s', r = .ok (s', rest) := by
  unfold consRead at h
  split at h
  · cases h
    exact ⟨_, rfl⟩
  · cases h

theorem skipChars_number {a b c d : Char} {n : Nat} (h : hexNumber a b c d = some n) (rest : List Char) :
    skipChars ('\\' :: 'u' :: a :: b :: c :: d :: rest) = skipChars rest := by
  rw [skipChars, h]

/-- What is read as a string is passed over as one. -/
theorem skipChars_of_readChars {s : List Char} (h : readChars cs = .ok (s, rest)) : skipChars cs = .ok rest := by
  fun_induction readChars cs generalizing s with
  | case1 | case3 | case5 | case6 | case7 | case9 | case10 | case13 | case14 => cases h
  | case2 rest =>
    cases h
    rfl
  | case4 a b c d e f g h' rest' n hn _ m hm _ ih =>
    obtain ⟨_, h⟩ := consRead_eq_ok h
    rw [skipChars_number hn, skipChars_number hm, ih h]
  | case8 a b c d e f g h' rest' n hn _ _ ih =>
    obtain ⟨_, h⟩ := consRead_eq_ok h
    rw [skipChars_number hn, ih h]
  | case11 a b c d rest' _ n hn _ ih =>
    obtain ⟨_, h⟩ := consRead_eq_ok h
    rw [skipChars_number hn, ih h]
  | case12 e rest' _ hnumber c hc ih =>
    obtain ⟨_, h⟩ := consRead_eq_ok h
    rw [skipChars, hc]
    · exact ih h
    · exact hnumber
  | case15 c rest' hquote _ hnumber hescape hplain ih =>
    obtain ⟨_, h⟩ := consRead_eq_ok h
    rw [skipChars, if_neg hplain]
    · exact ih h
    all_goals assumption

theorem skips_string (s : String) : Skips (stringText s) where
  opens := rfl
  skips := by
    intro levels cs rest _ _ hcs
    have hquoted : dropBlank cs = '"' :: (s.toList.flatMap escapeChar ++ '"' :: rest) := by
      rw [hcs]
      simp [stringText]
    rw [skipValue_dropBlank, hquoted]
    exact skipChars_of_readChars (readChars_flatMap s.toList rest)

/-- An item has fewer characters than the brackets around it and other items. -/
theorem length_lt_bracketed (h : item ∈ items) (level : Nat) (opening closing : Char) :
    item.length < (bracketed level opening closing items).length := by
  have hbehind : ∀ items, item ∈ items → item.length ≤ (behind level closing [] items).length := by
    intro items hmem
    induction items with
    | nil => cases hmem
    | cons first items ih =>
      simp only [behind, List.length_cons, List.length_append]
      rcases List.mem_cons.1 hmem with rfl | hmem
      · omega
      · have := ih hmem
        omega
  cases items with
  | nil => cases h
  | cons first items =>
    have hlen := congrArg List.length (bracketed_cons level opening closing first items [])
    simp only [List.append_nil, List.length_cons, List.length_append] at hlen
    rcases List.mem_cons.1 h with rfl | h
    · omega
    · have := hbehind items h
      omega

theorem skipValue_of_bracket (h : dropBlank cs = '[' :: more) (hmore : ∀ rest, dropBlank more ≠ ']' :: rest) :
    skipValue (levels + 1) cs = skipItems (skipValue levels) (more.length + 1) more := by
  rw [skipValue, h]
  split <;> grind

/-- An item that comes next is passed over. -/
theorem skipItems_of_next {value : List Char → Except Error (List Char)} (hvalue : value cs = .ok more) :
    skipItems value (steps + 1) cs =
      match dropBlank more with
      | ',' :: rest => skipItems value steps rest
      | ']' :: rest => .ok rest
      | _ => .error .malformed := by
  rw [skipItems, hvalue]
  rfl

/-- The items of an array are passed over one after the other. -/
theorem skipItems_behind {value : List Char → Except Error (List Char)} (hopens : ∀ text ∈ item :: items, opens text = true)
    (hvalue : ∀ text ∈ item :: items, ∀ cs more, stops more = true → dropBlank cs = text ++ more → value cs = .ok more)
    (hcs : dropBlank cs = item ++ behind level ']' rest items) (hsteps : items.length < steps) : skipItems value steps cs = .ok rest := by
  induction items generalizing item cs steps with
  | nil =>
    cases steps with
    | zero => cases hsteps
    | succ steps =>
      rw [skipItems_of_next (hvalue item List.mem_cons_self cs _ (stops_behind level ']' rest []) hcs), behind, dropBlank_line]
      rfl
  | cons item' items ih =>
    cases steps with
    | zero => cases hsteps
    | succ steps =>
      obtain ⟨-, hopens'⟩ := List.forall_mem_cons.1 hopens
      have hnext : dropBlank ('\n' :: (indentation (level + 1) ++ (item' ++ behind level ']' rest items))) =
          item' ++ behind level ']' rest items := by
        rw [dropBlank_line, dropBlank_of_opens (hopens' item' List.mem_cons_self)]
      rw [skipItems_of_next (hvalue item List.mem_cons_self cs _ (stops_behind level ']' rest (item' :: items)) hcs)]
      exact ih hopens' (fun text hmem => hvalue text (List.mem_cons_of_mem _ hmem)) hnext (Nat.lt_of_succ_lt_succ hsteps)

theorem skips_array (h : ∀ item ∈ items, Skips item) (level : Nat) : Skips (arrayText level items) where
  opens := by
    cases items <;> rfl
  skips := by
    intro levels cs rest hlevels hstops hcs
    cases items with
    | nil =>
      have hempty : dropBlank cs = '[' :: ']' :: rest := hcs
      rw [skipValue_dropBlank, hempty]
      rfl
    | cons item items =>
      have hvalue : ∀ text ∈ item :: items, ∀ cs more, stops more = true → dropBlank cs = text ++ more → skipValue levels cs = .ok more :=
        fun text hmem cs more =>
          (h text hmem).skipValue_eq (Nat.lt_of_lt_of_le (length_lt_bracketed hmem level '[' ']') hlevels)
      rw [arrayText, bracketed_cons] at hcs
      have hfirst : dropBlank ('\n' :: (indentation (level + 1) ++ (item ++ behind level ']' rest items))) =
          item ++ behind level ']' rest items := by
        rw [dropBlank_line, dropBlank_of_opens (h item List.mem_cons_self).opens]
      have hclosed (rest' : List Char) :
          dropBlank ('\n' :: (indentation (level + 1) ++ (item ++ behind level ']' rest items))) ≠ ']' :: rest' := by
        rw [hfirst]
        obtain ⟨c, cs', rfl, hc⟩ := eq_cons_of_opens (h item List.mem_cons_self).opens
        rintro ⟨⟩
        exact hc rfl
      rw [skipValue_of_bracket hcs hclosed]
      have hitems := length_le_behind level ']' rest items
      refine skipItems_behind (fun text hmem => (h text hmem).opens) hvalue hfirst ?_
      simp only [List.length_cons, List.length_append]
      omega

theorem skipValue_of_brace (h : dropBlank cs = '\x7b' :: more) (hmore : ∀ rest, dropBlank more ≠ '\x7d' :: rest) :
    skipValue (levels + 1) cs = skipMembers (skipValue levels) (more.length + 1) more := by
  rw [skipValue, h]
  split <;> grind

/-- A member that comes next is passed over with its key and its colon. -/
theorem skipMembers_of_next {value : List Char → Except Error (List Char)} {m : String × List Char}
    (hcs : dropBlank cs = '"' :: memberChars m ++ more) (hvalue : value (' ' :: (m.2 ++ more)) = .ok more) :
    skipMembers value (steps + 1) cs =
      match dropBlank more with
      | ',' :: rest => skipMembers value steps rest
      | '\x7d' :: rest => .ok rest
      | _ => .error .malformed := by
  have hkey := skipChars_of_readChars (readChars_memberChars m more)
  rw [skipMembers, hcs]
  change (skipChars (memberChars m ++ more) >>= _) = _
  rw [hkey]
  change (value (' ' :: (m.2 ++ more)) >>= _) = _
  rw [hvalue]
  rfl

/-- The members of an object are passed over one after the other. -/
theorem skipMembers_behind {value : List Char → Except Error (List Char)} {m : String × List Char} {members : List (String × List Char)}
    (hvalue : ∀ m' ∈ m :: members, ∀ more, stops more = true → value (' ' :: (m'.2 ++ more)) = .ok more)
    (hcs : dropBlank cs = '"' :: memberChars m ++ behind level '\x7d' rest (members.map fun m => '"' :: memberChars m))
    (hsteps : members.length < steps) : skipMembers value steps cs = .ok rest := by
  induction members generalizing m cs steps with
  | nil =>
    cases steps with
    | zero => cases hsteps
    | succ steps =>
      rw [skipMembers_of_next hcs (hvalue m List.mem_cons_self _ (stops_behind level '\x7d' rest _)), List.map_nil, behind, dropBlank_line]
      rfl
  | cons m' members ih =>
    cases steps with
    | zero => cases hsteps
    | succ steps =>
      rw [skipMembers_of_next hcs (hvalue m List.mem_cons_self _ (stops_behind level '\x7d' rest _))]
      exact ih (fun m'' hmem => hvalue m'' (List.mem_cons_of_mem _ hmem)) (dropBlank_line (level + 1) _) (Nat.lt_of_succ_lt_succ hsteps)

theorem skips_object {members : List (String × List Char)} (h : ∀ m ∈ members, Skips m.2) (level : Nat) :
    Skips (objectText level members) where
  opens := by
    cases members <;> rfl
  skips := by
    intro levels cs rest hlevels hstops hcs
    cases members with
    | nil =>
      have hempty : dropBlank cs = '\x7b' :: '\x7d' :: rest := hcs
      rw [skipValue_dropBlank, hempty]
      rfl
    | cons m members =>
      rw [objectText_eq] at hlevels hcs
      have hvalue : ∀ m' ∈ m :: members, ∀ more, stops more = true → skipValue levels (' ' :: (m'.2 ++ more)) = .ok more := by
        intro m' hmem more hstops
        have hlen := length_lt_bracketed (List.mem_map_of_mem hmem (f := fun m => '"' :: memberChars m)) level '\x7b' '\x7d'
        have hpart : m'.2.length ≤ ('"' :: memberChars m').length := by
          simp only [memberChars, List.length_cons, List.length_append]
          omega
        refine (h m' hmem).skipValue_eq (by omega) hstops ?_
        rw [dropBlank_space, dropBlank_of_opens (h m' hmem).opens]
      rw [List.map_cons, bracketed_cons] at hcs
      have hfirst := dropBlank_line (level + 1)
        ('"' :: memberChars m ++ behind level '\x7d' rest (members.map fun m => '"' :: memberChars m))
      have hclosed (rest' : List Char) : dropBlank ('\n' :: (indentation (level + 1) ++
          ('"' :: memberChars m ++ behind level '\x7d' rest (members.map fun m => '"' :: memberChars m)))) ≠ '\x7d' :: rest' := by
        rw [hfirst]
        rintro ⟨⟩
      rw [skipValue_of_brace hcs hclosed]
      have hitems := length_le_behind level '\x7d' rest (members.map fun m => '"' :: memberChars m)
      rw [List.length_map] at hitems
      refine skipMembers_behind hvalue hfirst ?_
      simp only [List.length_cons, List.length_append]
      omega

theorem IsValue.skips (h : IsValue text) : Skips text := by
  induction h with
  | null => exact skips_null
  | boolean b => exact skips_boolean b
  | word n => exact skips_word n
  | string s => exact skips_string s
  | array level _ ih => exact skips_array ih level
  | object level _ ih => exact skips_object ih level

/-! ## Records -/

/-- A text of a record whose fields have these texts: an object of the fields in any order, with values of any kind for other keys, or an
array of the fields' texts in their order. -/
inductive Form (fields : List (String × List Char)) : List Char → Prop where
  | object (level : Nat) {members : List (String × List Char)} :
      (members.filter fun m => m.1 ∈ fields.map Prod.fst).Perm fields → (∀ m ∈ members, m.1 ∉ fields.map Prod.fst → IsValue m.2) →
      Form fields (objectText level members)
  | array (level : Nat) : Form fields (arrayText level (fields.map Prod.snd))

namespace Form

/-- An object of just the fields, in their order, is a form of them. -/
theorem of_fields (fields : List (String × List Char)) (level : Nat) : Form fields (objectText level fields) := by
  refine .object level ?_ fun m hm hname => absurd (List.mem_map_of_mem hm) hname
  rw [List.filter_eq_self.2 fun m hm => decide_eq_true (List.mem_map_of_mem hm)]

end Form

namespace Member

variable {σ β : Type} {name : String} {read : Reader β} {get : σ → Option β} {set : β → σ → σ} {r r' : σ} {b : β}

@[simp] theorem of_name (name : String) (read : Reader β) (get : σ → Option β) (set : β → σ → σ) : (of name read get set).name = name :=
  rfl

/-- A field that is kept as an option has been given if there is a value. -/
theorem given_of {names : List String} (h : get r = if name ∈ names then some b else none) :
    (of name read get set).given r = decide (name ∈ names) := by
  change (get r).isSome = _
  rw [h]
  by_cases hname : name ∈ names <;> simp [hname]

/-- A field that is kept as an option is read with its value. -/
theorem readsAs_of (h : ReadsAs read text b) (hset : set b r = r') : ReadsAs ((of name read get set).read r) text r' :=
  hset ▸ h.map fun b => set b r

end Member

namespace Shape

variable {σ α : Type} {s : Shape σ α} {r r' : σ} {a : α} {m : Member σ} {ms : List (Member σ)} {name : String} {value : List Char}
  {fields : List (String × List Char)} {draft : List String → σ}

/-- A text is read into a field of its name: whichever fields have been given before, the record is then what it is with this one given too. -/
def FieldReads (draft : List String → σ) (f : String × List Char) (m : Member σ) : Prop :=
  f.1 = m.name ∧ ∀ names, ReadsAs (m.read (draft names)) f.2 (draft (m.name :: names))

/-- The fields of a record have texts that are read as a value's fields: they are read into the record whatever their order, and with all of
them given it is finished as the value. -/
structure Gives (s : Shape σ α) (fields : List (String × List Char)) (draft : List String → σ) (a : α) : Prop where
  distinct : (s.members.map Member.name).Nodup
  blank : draft [] = s.blank
  given : ∀ m ∈ s.members, ∀ names, m.given (draft names) = decide (m.name ∈ names)
  reads : List.Forall₂ (FieldReads draft) fields s.members
  finish : ∀ names, (∀ m ∈ s.members, m.name ∈ names) → s.finish (draft names) = some a

theorem exists_mem_of_forall₂ {β γ : Type} {R : β → γ → Prop} {bs : List β} {cs : List γ} (h : List.Forall₂ R bs cs) {b : β}
    (hb : b ∈ bs) : ∃ c ∈ cs, R b c := by
  induction h with
  | nil => cases hb
  | cons hbc _ ih =>
    rcases List.mem_cons.1 hb with rfl | hb
    · exact ⟨_, List.mem_cons_self, hbc⟩
    · obtain ⟨c, hc, hbc⟩ := ih hb
      exact ⟨c, List.mem_cons_of_mem _ hc, hbc⟩

/-- A key that nobody knows is passed over with its value. -/
theorem readMembers_other {first : Bool} (hnext : nextKey first cs = .ok (.element (memberChars (name, value) ++ more)))
    (hfind : (s.members.find? fun m => m.name == name) = none) (hvalue : Skips value) (hstops : stops more = true) :
    s.readMembers (steps + 1) first r cs = s.readMembers steps false r more := by
  have hskip : skipValue ((' ' :: (value ++ more)).length + 1) (' ' :: (value ++ more)) = .ok more := by
    refine hvalue.skips _ _ _ (by simp only [List.length_cons, List.length_append]; omega) hstops ?_
    rw [dropBlank_space, dropBlank_of_opens hvalue.opens]
  rw [readMembers, hnext]
  change (readChars (memberChars (name, value) ++ more) >>= _) = _
  rw [readChars_memberChars]
  simp only [bind, Except.bind, String.ofList_toList, hfind]
  change (skipValue ((' ' :: (value ++ more)).length + 1) (' ' :: (value ++ more)) >>= fun rest => s.readMembers steps false r rest) = _
  rw [hskip]
  rfl

/-- A field that comes next in an array is read into the record, and the others behind it. -/
theorem readFields_of_next (given : Nat) (hnext : nextElement (given == 0) cs = .ok (.element text))
    (hread : m.read r text = .ok (r', more)) : s.readFields (m :: ms) given r cs = s.readFields ms (given + 1) r' more := by
  rw [readFields, hnext]
  change (m.read r text >>= _) = _
  rw [hread]
  rfl

namespace Gives

theorem names_eq (h : s.Gives fields draft a) : fields.map Prod.fst = s.members.map Member.name := by
  have hnames := List.forall₂_map_left_iff.2 (List.forall₂_map_right_iff.2 (h.reads.imp fun _ _ hf => hf.1))
  rwa [List.forall₂_eq_eq_eq] at hnames

theorem complete_eq (h : s.Gives fields draft a) {names : List String} (hall : ∀ m ∈ s.members, m.name ∈ names) :
    s.complete (draft names) = .ok a := by
  have hnone : (s.members.find? fun m => !m.given (draft names)) = none := by
    refine List.find?_eq_none.2 fun m hm => ?_
    rw [h.given m hm, decide_eq_true (hall m hm)]
    decide
  rw [complete, hnone, h.finish names hall]

/-- The field that a text is for is found by its name. -/
theorem exists_find? (h : s.Gives fields draft a) (hf : (name, value) ∈ fields) :
    ∃ m ∈ s.members, (s.members.find? fun m => m.name == name) = some m ∧ m.name = name ∧
      ∀ names, ReadsAs (m.read (draft names)) value (draft (name :: names)) := by
  obtain ⟨m, hm, hname, hreads⟩ := exists_mem_of_forall₂ h.reads hf
  cases hname
  have hsome : (s.members.find? fun m' => m'.name == m.name).isSome = true := List.find?_isSome.2 ⟨m, hm, beq_self_eq_true m.name⟩
  obtain ⟨m', hfind⟩ := Option.isSome_iff_exists.1 hsome
  have hname' : m'.name = m.name := by simpa using List.find?_some hfind
  cases List.inj_on_of_nodup_map h.distinct (List.mem_of_find?_eq_some hfind) hm hname'
  exact ⟨m, hm, hfind, rfl, hreads⟩

theorem find?_eq_none (h : s.Gives fields draft a) (hname : name ∉ fields.map Prod.fst) :
    (s.members.find? fun m => m.name == name) = none := by
  rw [h.names_eq] at hname
  exact List.find?_eq_none.2 fun m hm heq => hname (beq_iff_eq.1 heq ▸ List.mem_map_of_mem hm)

/-- The names of the fields among the members of an object. -/
def known (fields members : List (String × List Char)) : List String :=
  (members.filter fun m => m.1 ∈ fields.map Prod.fst).map Prod.fst

/-- The members of an object give the fields among them, each of them once. The induction is on the members, and what has been given before
only grows. -/
theorem readMembers_behind (h : s.Gives fields draft a) {members : List (String × List Char)}
    (hfields : ∀ m ∈ members, m.1 ∈ fields.map Prod.fst → m ∈ fields)
    (hothers : ∀ m ∈ members, m.1 ∉ fields.map Prod.fst → IsValue m.2) {names : List String} (hfresh : (known fields members ++ names).Nodup)
    (level : Nat) (hsteps : members.length < steps) (rest : List Char) :
    s.readMembers steps false (draft names) (behind level '\x7d' rest (members.map fun m => '"' :: memberChars m)) =
      .ok (draft ((known fields members).reverse ++ names), rest) := by
  induction members generalizing names steps with
  | nil =>
    cases steps with
    | zero => cases hsteps
    | succ steps =>
      rw [List.map_nil, readMembers, nextKey_done]
      rfl
  | cons member members ih =>
    cases steps with
    | zero => cases hsteps
    | succ steps =>
      obtain ⟨name, value⟩ := member
      have hfields' := fun m hm => hfields m (List.mem_cons_of_mem _ hm)
      have hothers' := fun m hm => hothers m (List.mem_cons_of_mem _ hm)
      by_cases hname : name ∈ fields.map Prod.fst
      · have hknown : known fields ((name, value) :: members) = name :: known fields members := by
          rw [known, List.filter_cons_of_pos (by simpa using hname)]
          rfl
        rw [hknown] at hfresh ⊢
        obtain ⟨m, hm, hfind, rfl, hread⟩ := h.exists_find? (hfields _ List.mem_cons_self hname)
        have hgiven : m.given (draft names) = false := by
          rw [h.given m hm]
          exact decide_eq_false fun hmem => (List.nodup_cons.1 hfresh).1 (List.mem_append_right _ hmem)
        rw [List.map_cons, readMembers_of_next (nextKey_behind level rest _ _) hfind hgiven (hread names) (stops_behind level _ rest _),
          ih hfields' hothers' (List.nodup_middle.2 hfresh) (Nat.lt_of_succ_lt_succ hsteps)]
        simp
      · have hknown : known fields ((name, value) :: members) = known fields members := by
          rw [known, List.filter_cons_of_neg (by simpa using hname)]
          rfl
        rw [hknown] at hfresh ⊢
        rw [List.map_cons, readMembers_other (nextKey_behind level rest _ _) (h.find?_eq_none hname)
          (hothers _ List.mem_cons_self hname).skips (stops_behind level _ rest _), ih hfields' hothers' hfresh (Nat.lt_of_succ_lt_succ hsteps)]

/-- An object of the fields in any order, with any values for other keys, is read as the value. -/
theorem readsAs_object (h : s.Gives fields draft a) {members : List (String × List Char)}
    (hperm : (members.filter fun m => m.1 ∈ fields.map Prod.fst).Perm fields)
    (hothers : ∀ m ∈ members, m.1 ∉ fields.map Prod.fst → IsValue m.2) (level : Nat) : ReadsAs s.read (objectText level members) a := by
  have hknown : (known fields members).Perm (s.members.map Member.name) := h.names_eq ▸ hperm.map Prod.fst
  have hfields : ∀ m ∈ members, m.1 ∈ fields.map Prod.fst → m ∈ fields :=
    fun m hm hname => hperm.mem_iff.1 (List.mem_filter.2 ⟨hm, by simpa using hname⟩)
  have hfresh : (known fields members ++ []).Nodup := by
    rw [List.append_nil]
    exact hknown.nodup_iff.2 h.distinct
  refine Shape.readsAs_object level (r := draft ((known fields members).reverse ++ [])) (fun steps rest hsteps => ?_) ?_
  · rw [← h.blank]
    exact h.readMembers_behind hfields hothers hfresh level hsteps rest
  · refine h.complete_eq fun m hm => List.mem_append_left _ (List.mem_reverse.2 ?_)
    exact hknown.mem_iff.2 (List.mem_map_of_mem hm)

/-- The texts of an array give the fields in order. -/
theorem readFields_behind {fs : List (String × List Char)} {names : List String}
    (hreads : List.Forall₂ (FieldReads draft) fs ms) (level given : Nat) (rest : List Char) :
    s.readFields ms (given + 1) (draft names) (behind level ']' rest (fs.map Prod.snd)) =
      .ok (draft ((ms.map Member.name).reverse ++ names), rest) := by
  induction hreads generalizing names given with
  | nil =>
    rw [List.map_nil, readFields, behind, dropBlank_line]
    rfl
  | @cons f m fs ms hf _ ih =>
    have hread := hf.2 names
    rw [List.map_cons, readFields_of_next (given + 1) (nextElement_behind hread.opens level rest _)
      (hread.reads _ _ (stops_behind level ']' rest _) (dropBlank_of_opens hread.opens _)), ih]
    simp

/-- The fields are all given behind the opening bracket, the first of them without a comma. -/
theorem readFields_array (s : Shape σ α) {fs : List (String × List Char)} (hreads : List.Forall₂ (FieldReads draft) fs ms)
    (hcs : dropBlank cs = arrayText level (fs.map Prod.snd) ++ rest) :
    ∃ more, dropBlank cs = '[' :: more ∧ s.readFields ms 0 (draft []) more = .ok (draft (ms.map Member.name).reverse, rest) := by
  cases hreads with
  | nil => exact ⟨']' :: rest, hcs, rfl⟩
  | @cons f m fs ms hf hreads =>
    have hread := hf.2 []
    rw [List.map_cons, arrayText, bracketed_cons] at hcs
    refine ⟨_, hcs, ?_⟩
    rw [readFields_of_next 0 (nextElement_first hread.opens (level + 1) _)
      (hread.reads _ _ (stops_behind level ']' rest _) (dropBlank_of_opens hread.opens _)), readFields_behind hreads]
    simp

/-- An array of the fields' texts is read as the value. -/
theorem readsAs_array (h : s.Gives fields draft a) (level : Nat) : ReadsAs s.read (arrayText level (fields.map Prod.snd)) a where
  opens := by
    cases fields <;> rfl
  reads := by
    intro cs rest hstops hcs
    obtain ⟨more, hcs, hread⟩ := readFields_array s h.reads hcs
    rw [h.blank] at hread
    have hcomplete := h.complete_eq fun m hm => List.mem_reverse.2 (List.mem_map_of_mem hm)
    rw [read, hcs]
    simp only [bind, Except.bind, hread, hcomplete]

end Gives

/-- Every form of a record whose fields are a value's is read as the value. -/
theorem Gives.readsAs (h : s.Gives fields draft a) (hform : Form fields text) : ReadsAs s.read text a := by
  cases hform with
  | object level hperm hothers => exact h.readsAs_object hperm hothers level
  | array level => exact h.readsAs_array level

end Shape

end BootDisk.Json
