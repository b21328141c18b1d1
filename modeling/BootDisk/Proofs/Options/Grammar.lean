import BootDisk.Options

/-!
# The grammar of the command line

Arguments are cut into items from left to right: a flag, an option with the argument behind it, or a word that is no option (`Item`). The
cut is the only one there is, and it goes on to the end or to the first argument that starts no item (`Fault`). Exactly the arguments that
can be cut to the end, with one word among them that names a task, are a run, and what the run is is read off the items of each kind
(`parse_items`). So it does not matter where the word stands, nor how items of different kinds are mixed.
-/

namespace BootDisk.Options

/-! ## Items -/

/-- The sorts of items, by what they are about. -/
inductive Kind where
  | profile
  | config
  | verbose
  | headless
  | serialLog
  | word
  deriving DecidableEq, Repr

/-- The options that stand alone. -/
inductive Flag where
  | release
  | debug
  | v
  | verbose
  | headless
  deriving DecidableEq, Repr

namespace Flag

/-- A flag as it is written. -/
def text : Flag → String
  | release => "--release"
  | debug => "--debug"
  | v => "-v"
  | verbose => "--verbose"
  | headless => "--headless"

/-- What a flag is about. -/
def about : Flag → Kind
  | release => .profile
  | debug => .profile
  | v => .verbose
  | verbose => .verbose
  | headless => .headless

end Flag

/-- The options that take the next argument as their value. -/
inductive ValueOption where
  | mode
  | config
  | serialLog
  deriving DecidableEq, Repr

namespace ValueOption

/-- An option as it is written. -/
def text : ValueOption → String
  | mode => "--mode"
  | config => "--config"
  | serialLog => "--serial-log"

/-- What an option says it takes. -/
def kind : ValueOption → ValueKind
  | mode => .value
  | config => .path
  | serialLog => .path

/-- What an option is about. -/
def about : ValueOption → Kind
  | mode => .profile
  | config => .config
  | serialLog => .serialLog

end ValueOption

/-- The words for profiles, as the value of an option. -/
def profileWords : List (String × Profile) :=
  [("release", .release), ("--release", .release), ("debug", .debug), ("--debug", .debug), ("dev", .debug)]

/-- The words for tasks. -/
def taskWords : List (String × Task) :=
  [("stage", .stage), ("image", .image), ("all", .all), ("qemu", .qemu), ("run", .qemu), ("check", .check)]

/-- Whether an option takes a value: a profile has to be one of the words for it, and a path may be anything. -/
def ValueOption.Takes : ValueOption → String → Prop
  | mode, value => ∃ profile, (value, profile) ∈ profileWords
  | config, _ => True
  | serialLog, _ => True

/-- An item of the command line. -/
inductive Item where
  | flag (f : Flag)
  | option (o : ValueOption) (value : String) (takes : o.Takes value)
  | word (w : String) (plain : w.toList.head? ≠ some '-')

namespace Item

/-- The arguments that an item is written as. -/
def args : Item → List String
  | flag f => [f.text]
  | option o value _ => [o.text, value]
  | word w _ => [w]

/-- What an item is about. -/
def kind : Item → Kind
  | flag f => f.about
  | option o _ _ => o.about
  | word _ _ => .word

/-- The profile that an item asks for. -/
def profile? : Item → Option Profile
  | flag .release => some .release
  | flag .debug => some .debug
  | option .mode value _ => profileWords.lookup value
  | _ => none

/-- The value that an item gives to an option. -/
def value? (o : ValueOption) : Item → Option String
  | option o' value _ => if o' = o then some value else none
  | _ => none

/-- The word that an item is. -/
def word? : Item → Option String
  | word w _ => some w
  | _ => none

end Item

/-- The arguments that items are written as, one after the other. -/
def spelled (items : List Item) : List String :=
  items.flatMap Item.args

/-- What the last of the items says that say anything. -/
def lastSaid {α : Type} (tell : Item → Option α) (items : List Item) : Option α :=
  (items.filterMap tell).getLast?

/-- What items say about a run: of those that set the profile, and of those that give a path, the last one counts. -/
def settingsOf (items : List Item) : Settings where
  profile := (lastSaid Item.profile? items).getD .release
  config := (lastSaid (Item.value? .config) items).map Path.mk
  verbose := items.any fun i => i.kind = .verbose
  headless := items.any fun i => i.kind = .headless
  serialLog := (lastSaid (Item.value? .serialLog) items).map Path.mk

/-- The words among items. -/
def wordsOf (items : List Item) : List String :=
  items.filterMap Item.word?

/-- Arguments whose first one starts no item, and why: help is asked for, no option is written so, the value is missing, or it is no word
for a profile. -/
inductive Fault : List String → OptionError → Prop where
  | help {a : String} (rest : List String) : a = "-h" ∨ a = "--help" → Fault (a :: rest) .usage
  | unknown {a : String} (rest : List String) : a.toList.head? = some '-' → a ≠ "-h" → a ≠ "--help" → (∀ f : Flag, a ≠ f.text) →
      (∀ o : ValueOption, a ≠ o.text) → Fault (a :: rest) (.unknownOption a)
  | missing (o : ValueOption) : Fault [o.text] (.missingValue o.text o.kind)
  | unsupported {value : String} (rest : List String) : ¬ ValueOption.mode.Takes value →
      Fault (ValueOption.mode.text :: value :: rest) (.unsupportedProfile value)

/-! ## The cut -/

variable {s : Settings} {words args rest : List String} {items items' : List Item}

theorem Flag.text_injective {f f' : Flag} (h : f.text = f'.text) : f = f' := by
  revert h
  cases f <;> cases f' <;> decide

theorem ValueOption.text_injective {o o' : ValueOption} (h : o.text = o'.text) : o = o' := by
  revert h
  cases o <;> cases o' <;> decide

theorem Flag.text_ne (f : Flag) (o : ValueOption) : f.text ≠ o.text := by
  cases f <;> cases o <;> decide

theorem Flag.head?_text (f : Flag) : f.text.toList.head? = some '-' := by
  cases f <;> rfl

theorem ValueOption.head?_text (o : ValueOption) : o.text.toList.head? = some '-' := by
  cases o <;> rfl

/-- What the first item of arguments is, and what is behind it, is told by the arguments. -/
theorem Item.args_append_inj {i i' : Item} {rest rest' : List String} (h : i.args ++ rest = i'.args ++ rest') : i = i' ∧ rest = rest' := by
  cases i with
  | flag f =>
    cases i' with
    | flag f' =>
      obtain ⟨htext, hrest⟩ := List.cons.inj h
      exact ⟨congrArg Item.flag (Flag.text_injective htext), hrest⟩
    | option o' value' takes' => exact absurd (List.cons.inj h).1 (f.text_ne o')
    | word w' plain' => exact absurd ((List.cons.inj h).1 ▸ f.head?_text) plain'
  | option o value takes =>
    cases i' with
    | flag f' => exact absurd (List.cons.inj h).1.symm (f'.text_ne o)
    | option o' value' takes' =>
      obtain ⟨htext, h⟩ := List.cons.inj h
      obtain ⟨rfl, hrest⟩ := List.cons.inj h
      cases ValueOption.text_injective htext
      exact ⟨rfl, hrest⟩
    | word w' plain' => exact absurd ((List.cons.inj h).1 ▸ o.head?_text) plain'
  | word w plain =>
    cases i' with
    | flag f' => exact absurd ((List.cons.inj h).1 ▸ f'.head?_text) plain
    | option o' value' takes' => exact absurd ((List.cons.inj h).1 ▸ o'.head?_text) plain
    | word w' plain' =>
      obtain ⟨rfl, hrest⟩ := List.cons.inj h
      exact ⟨rfl, hrest⟩

theorem Item.args_ne_nil (i : Item) : i.args ≠ [] := by
  cases i <;> exact List.cons_ne_nil _ _

/-- Arguments are the spelling of one list of items at most. -/
theorem spelled_injective (h : spelled items = spelled items') : items = items' := by
  induction items generalizing items' with
  | nil =>
    cases items' with
    | nil => rfl
    | cons i' items' => exact absurd (List.append_eq_nil_iff.1 h.symm).1 i'.args_ne_nil
  | cons i items ih =>
    cases items' with
    | nil => exact absurd (List.append_eq_nil_iff.1 h).1 i.args_ne_nil
    | cons i' items' =>
      obtain ⟨rfl, hrest⟩ := Item.args_append_inj h
      rw [ih hrest]

/-! ## Reading items -/

/-- The settings after an item. -/
def Item.apply (s : Settings) : Item → Settings
  | flag .release => { s with profile := .release }
  | flag .debug => { s with profile := .debug }
  | flag .v => { s with verbose := true }
  | flag .verbose => { s with verbose := true }
  | flag .headless => { s with headless := true }
  | option .mode value _ => { s with profile := (profileWords.lookup value).getD s.profile }
  | option .config value _ => { s with config := some ⟨value⟩ }
  | option .serialLog value _ => { s with serialLog := some ⟨value⟩ }
  | word _ _ => s

/-- A word for a profile is one that the profile is told by. -/
theorem parse_of_takes {value : String} (h : ValueOption.mode.Takes value) :
    ∃ profile, Profile.parse value = .ok profile ∧ profileWords.lookup value = some profile := by
  obtain ⟨profile, hmem⟩ := h
  simp only [profileWords, List.mem_cons, Prod.mk.injEq, List.not_mem_nil, or_false] at hmem
  rcases hmem with ⟨rfl, rfl⟩ | ⟨rfl, rfl⟩ | ⟨rfl, rfl⟩ | ⟨rfl, rfl⟩ | ⟨rfl, rfl⟩ <;> exact ⟨_, rfl, rfl⟩

theorem parse_of_not_takes {value : String} (h : ¬ ValueOption.mode.Takes value) :
    Profile.parse value = .error (.unsupportedProfile value) := by
  have hword : Profile.ofWord? value = none := by
    unfold Profile.ofWord?
    split
    · next hrelease =>
      rcases hrelease with rfl | rfl
      · exact absurd ⟨.release, by decide⟩ h
      · exact absurd ⟨.release, by decide⟩ h
    · split
      · next hdebug =>
        rcases hdebug with rfl | rfl | rfl
        · exact absurd ⟨.debug, by decide⟩ h
        · exact absurd ⟨.debug, by decide⟩ h
        · exact absurd ⟨.debug, by decide⟩ h
      · rfl
  rw [Profile.parse, hword]

theorem scan_nil (s : Settings) (words : List String) : scan s words [] = .ok (s, words) :=
  rfl

theorem scan_mode (s : Settings) (words : List String) (value : String) (rest : List String) :
    scan s words ("--mode" :: value :: rest) =
      match Profile.parse value with
      | .error e => .error e
      | .ok p => scan { s with profile := p } words rest :=
  rfl

/-- A word that is no option is gathered. -/
theorem scan_plain {w : String} (h : w.toList.head? ≠ some '-') (s : Settings) (words rest : List String) :
    scan s words (w :: rest) = scan s (words ++ [w]) rest := by
  have hne : ∀ {a : String}, a.toList.head? = some '-' → w ≠ a := fun ha heq => h (heq ▸ ha)
  rw [scan.eq_def]
  simp only [hne (a := "--release") rfl, hne (a := "--debug") rfl, hne (a := "--mode") rfl, hne (a := "--config") rfl,
    hne (a := "-v") rfl, hne (a := "--verbose") rfl, hne (a := "--headless") rfl, hne (a := "--serial-log") rfl, hne (a := "-h") rfl,
    hne (a := "--help") rfl, h, or_self, if_false]

/-- An item is read as what it says, and the reading goes on behind it. -/
theorem scan_item (i : Item) (s : Settings) (words rest : List String) :
    scan s words (i.args ++ rest) = scan (i.apply s) (words ++ i.word?.toList) rest := by
  cases i with
  | flag f =>
    rw [show Item.word? (.flag f) = none from rfl, Option.toList_none, List.append_nil]
    -- the reading looks one argument ahead
    cases f <;> cases rest <;> rfl
  | option o value takes =>
    rw [show Item.word? (.option o value takes) = none from rfl, Option.toList_none, List.append_nil]
    cases o with
    | mode =>
      obtain ⟨profile, hparse, hlookup⟩ := parse_of_takes takes
      change scan s words ("--mode" :: value :: rest) = _
      rw [scan_mode, hparse, Item.apply, hlookup]
      rfl
    | config => rfl
    | serialLog => rfl
  | word w plain => exact scan_plain plain s words rest

/-- Items are read one after the other. -/
theorem scan_spelled (items : List Item) (s : Settings) (words rest : List String) :
    scan s words (spelled items ++ rest) = scan (items.foldl Item.apply s) (words ++ wordsOf items) rest := by
  induction items generalizing s words with
  | nil => simp [spelled, wordsOf]
  | cons i items ih =>
    have hwords : wordsOf (i :: items) = i.word?.toList ++ wordsOf items := by
      cases h : i.word? <;> simp [wordsOf, h]
    rw [spelled, List.flatMap_cons, List.append_assoc, scan_item, List.foldl_cons, hwords, ← List.append_assoc]
    exact ih (i.apply s) _

/-- The fault that arguments start with is what is found there. -/
theorem scan_fault {e : OptionError} (h : Fault args e) (s : Settings) (words : List String) : scan s words args = .error e := by
  cases h with
  | help rest ha =>
    rcases ha with rfl | rfl <;> cases rest <;> rfl
  | @unknown a rest hdash h₁ h₂ hflag hoption =>
    rw [scan.eq_def]
    simp only [show a ≠ "--release" from hflag .release, show a ≠ "--debug" from hflag .debug, show a ≠ "-v" from hflag .v,
      show a ≠ "--verbose" from hflag .verbose, show a ≠ "--headless" from hflag .headless, show a ≠ "--mode" from hoption .mode,
      show a ≠ "--config" from hoption .config, show a ≠ "--serial-log" from hoption .serialLog, h₁, h₂, hdash, or_self, if_false,
      if_true]
  | missing o =>
    cases o <;> rfl
  | unsupported rest htakes =>
    rw [ValueOption.text, scan_mode, parse_of_not_takes htakes]

/-- Arguments are items to the end, or up to a fault. -/
def IsCut (args : List String) : Prop :=
  (∃ items, args = spelled items) ∨ ∃ items rest e, args = spelled items ++ rest ∧ Fault rest e

theorem IsCut.cons (i : Item) (h : IsCut rest) : IsCut (i.args ++ rest) := by
  rcases h with ⟨items, rfl⟩ | ⟨items, rest, e, rfl, hfault⟩
  · exact Or.inl ⟨i :: items, rfl⟩
  · exact Or.inr ⟨i :: items, rest, e, (List.append_assoc _ _ _).symm, hfault⟩

theorem IsCut.of_fault {e : OptionError} (h : Fault args e) : IsCut args :=
  Or.inr ⟨[], args, e, rfl, h⟩

/-- All arguments can be cut. The recursion is on what is behind the first item, which is one argument or two. -/
theorem isCut (args : List String) : IsCut args := by
  match args with
  | [] => exact Or.inl ⟨[], rfl⟩
  | a :: rest =>
    by_cases hdash : a.toList.head? = some '-'
    · by_cases hflag : ∃ f : Flag, a = f.text
      · obtain ⟨f, rfl⟩ := hflag
        exact (isCut rest).cons (.flag f)
      · by_cases hoption : ∃ o : ValueOption, a = o.text
        · obtain ⟨o, rfl⟩ := hoption
          match rest with
          | [] => exact .of_fault (.missing o)
          | value :: rest =>
            by_cases htakes : o.Takes value
            · exact (isCut rest).cons (.option o value htakes)
            · cases o with
              | mode => exact .of_fault (.unsupported rest htakes)
              | config => exact absurd trivial htakes
              | serialLog => exact absurd trivial htakes
        · by_cases hhelp : a = "-h" ∨ a = "--help"
          · exact .of_fault (.help rest hhelp)
          · exact .of_fault (.unknown rest hdash (fun h => hhelp (Or.inl h)) (fun h => hhelp (Or.inr h))
              (fun f h => hflag ⟨f, h⟩) fun o h => hoption ⟨o, h⟩)
    · exact (isCut rest).cons (.word a hdash)
termination_by args.length

/-! ## What items say -/

theorem lastSaid_cons {α : Type} (tell : Item → Option α) (i : Item) (items : List Item) :
    lastSaid tell (i :: items) = (lastSaid tell items).or (tell i) := by
  unfold lastSaid
  cases h : tell i with
  | none => rw [List.filterMap_cons_none h, Option.or_none]
  | some a => cases hlast : (items.filterMap tell).getLast? <;> simp [h, List.getLast?_cons, hlast]

/-- Items that are read over settings say what they say, and where they say nothing the settings stay. -/
theorem foldl_apply (items : List Item) (s : Settings) :
    items.foldl Item.apply s =
      { profile := (lastSaid Item.profile? items).getD s.profile
        config := ((lastSaid (Item.value? .config) items).map Path.mk).or s.config
        verbose := s.verbose || items.any fun i => i.kind = .verbose
        headless := s.headless || items.any fun i => i.kind = .headless
        serialLog := ((lastSaid (Item.value? .serialLog) items).map Path.mk).or s.serialLog } := by
  induction items generalizing s with
  | nil => simp [lastSaid]
  | cons i items ih =>
    rw [List.foldl_cons, ih]
    simp only [lastSaid_cons, List.any_cons]
    cases i with
    | flag f =>
      cases f <;> simp [Item.apply, Item.profile?, Item.value?, Item.kind, Flag.about]
    | option o value takes =>
      cases o <;> simp [Item.apply, Item.profile?, Item.value?, Item.kind, ValueOption.about, Option.getD_or]
    | word w plain => simp [Item.apply, Item.profile?, Item.value?, Item.kind]

theorem scan_items (items : List Item) (rest : List String) :
    scan {} [] (spelled items ++ rest) = scan (settingsOf items) (wordsOf items) rest := by
  rw [scan_spelled, foldl_apply, List.nil_append]
  simp [settingsOf]

/-- What is said by items of one kind is not changed by those of other kinds. -/
theorem filterMap_filter {α : Type} {tell : Item → Option α} {k : Kind} (h : ∀ i, tell i ≠ none → i.kind = k) (items : List Item) :
    (items.filter (·.kind = k)).filterMap tell = items.filterMap tell := by
  induction items with
  | nil => rfl
  | cons i items ih =>
    by_cases hkind : i.kind = k
    · rw [List.filter_cons_of_pos (by simpa using hkind), List.filterMap_cons, List.filterMap_cons, ih]
    · have hnone : tell i = none := Classical.not_not.1 fun htell => hkind (h i htell)
      rw [List.filter_cons_of_neg (by simpa using hkind), ih, List.filterMap_cons_none hnone]

theorem Item.kind_of_profile? (i : Item) (h : i.profile? ≠ none) : i.kind = .profile := by
  cases i with
  | flag f => cases f <;> first | rfl | exact absurd rfl h
  | option o value takes => cases o <;> first | rfl | exact absurd rfl h
  | word w plain => exact absurd rfl h

theorem Item.kind_of_value? {o : ValueOption} (i : Item) (h : i.value? o ≠ none) : i.kind = o.about := by
  cases i with
  | option o' value takes =>
    by_cases ho : o' = o
    · exact congrArg ValueOption.about ho
    · exact absurd (if_neg ho) h
  | flag f => exact absurd rfl h
  | word w plain => exact absurd rfl h

theorem Item.kind_of_word? (i : Item) (h : i.word? ≠ none) : i.kind = .word := by
  cases i with
  | word w plain => rfl
  | flag f => exact absurd rfl h
  | option o value takes => exact absurd rfl h

/-- Items that are the same ones of each kind, in the same order, say the same: a profile, a path or the words are said by one kind. -/
theorem settingsOf_congr (h : ∀ k : Kind, items.filter (·.kind = k) = items'.filter (·.kind = k)) :
    settingsOf items = settingsOf items' ∧ wordsOf items = wordsOf items' := by
  have htell {α : Type} {tell : Item → Option α} {k : Kind} (hkind : ∀ i, tell i ≠ none → i.kind = k) :
      items.filterMap tell = items'.filterMap tell := by
    rw [← filterMap_filter hkind items, h k, filterMap_filter hkind items']
  have hany (k : Kind) : items.any (·.kind = k) = items'.any (·.kind = k) := by
    rw [Bool.eq_iff_iff, List.any_eq_true, List.any_eq_true]
    have hmem (items : List Item) : (∃ i ∈ items, decide (i.kind = k) = true) ↔ items.filter (·.kind = k) ≠ [] := by
      simp [List.filter_eq_nil_iff]
    rw [hmem items, hmem items', h k]
  refine ⟨?_, htell Item.kind_of_word?⟩
  simp only [settingsOf, lastSaid, htell Item.kind_of_profile?, htell (Item.kind_of_value? (o := .config)),
    htell (Item.kind_of_value? (o := .serialLog)), hany]

/-! ## Runs -/

theorem ofWord?_eq_some_iff {w : String} {t : Task} : Task.ofWord? w = some t ↔ (w, t) ∈ taskWords := by
  constructor
  · intro h
    unfold Task.ofWord? at h
    grind [taskWords]
  · intro h
    simp only [taskWords, List.mem_cons, Prod.mk.injEq, List.not_mem_nil, or_false] at h
    rcases h with ⟨rfl, rfl⟩ | ⟨rfl, rfl⟩ | ⟨rfl, rfl⟩ | ⟨rfl, rfl⟩ | ⟨rfl, rfl⟩ | ⟨rfl, rfl⟩ <;> rfl

/-- Words that name a task, as one word. -/
def Names (words : List String) (t : Task) : Prop :=
  ∃ w, words = [w] ∧ (w, t) ∈ taskWords

theorem parse_of_names {t : Task} (h : Names (wordsOf items) t) : parse (spelled items) = .ok ⟨t, settingsOf items⟩ := by
  obtain ⟨w, hwords, hw⟩ := h
  have hscan := scan_items items []
  rw [List.append_nil, hwords] at hscan
  simp only [parse, hscan, scan_nil, ofWord?_eq_some_iff.2 hw]

theorem parse_of_not_names (h : ¬ ∃ t, Names (wordsOf items) t) : parse (spelled items) = .error .usage := by
  have hscan := scan_items items []
  rw [List.append_nil] at hscan
  simp only [parse, hscan, scan_nil]
  split
  · next w hwords =>
    split
    · next t ht => exact absurd ⟨t, w, hwords, ofWord?_eq_some_iff.1 ht⟩ h
    · rfl
  · rfl

theorem parse_of_fault {e : OptionError} (h : Fault rest e) : parse (spelled items ++ rest) = .error e := by
  simp only [parse, scan_items, scan_fault h]

/-- Arguments are a run exactly if they are items to the end and the words among them are one that names a task; the run is that task,
under what the items say. No arguments are items in two ways. Arguments that are no run fail with the first fault that items lead to, or,
if there is none, with how to call the program. And items that are the same ones of each kind are the same run, or fail in the same way,
however they are mixed. -/
theorem parse_items (args : List String) :
    (∀ o, parse args = .ok o ↔ ∃ items t, args = spelled items ∧ Names (wordsOf items) t ∧ o = ⟨t, settingsOf items⟩) ∧
    (∀ items items', args = spelled items → args = spelled items' → items = items') ∧
    (∀ e, parse args = .error e ↔
      (∃ items rest, args = spelled items ++ rest ∧ Fault rest e) ∨
        ((∃ items, args = spelled items ∧ ¬ ∃ t, Names (wordsOf items) t) ∧ e = .usage)) ∧
    ∀ items items', args = spelled items → (∀ k : Kind, items.filter (·.kind = k) = items'.filter (·.kind = k)) →
      parse args = parse (spelled items') := by
  refine ⟨fun o => ⟨fun h => ?_, ?_⟩, fun items items' h h' => spelled_injective (h.symm.trans h'), fun e => ⟨fun h => ?_, ?_⟩, ?_⟩
  · rcases isCut args with ⟨items, rfl⟩ | ⟨items, rest, e, rfl, hfault⟩
    · by_cases hnames : ∃ t, Names (wordsOf items) t
      · obtain ⟨t, ht⟩ := hnames
        rw [parse_of_names ht] at h
        exact ⟨items, t, rfl, ht, (Except.ok.inj h).symm⟩
      · rw [parse_of_not_names hnames] at h
        cases h
    · rw [parse_of_fault hfault] at h
      cases h
  · rintro ⟨items, t, rfl, ht, rfl⟩
    exact parse_of_names ht
  · rcases isCut args with ⟨items, rfl⟩ | ⟨items, rest, e', rfl, hfault⟩
    · by_cases hnames : ∃ t, Names (wordsOf items) t
      · obtain ⟨t, ht⟩ := hnames
        rw [parse_of_names ht] at h
        cases h
      · rw [parse_of_not_names hnames] at h
        exact Or.inr ⟨⟨items, rfl, hnames⟩, (Except.error.inj h).symm⟩
    · rw [parse_of_fault hfault] at h
      exact Or.inl ⟨items, rest, rfl, Except.error.inj h ▸ hfault⟩
  · rintro (⟨items, rest, rfl, hfault⟩ | ⟨⟨items, rfl, hnames⟩, rfl⟩)
    · exact parse_of_fault hfault
    · exact parse_of_not_names hnames
  · rintro items items' rfl h
    obtain ⟨hsettings, hwords⟩ := settingsOf_congr h
    by_cases hnames : ∃ t, Names (wordsOf items) t
    · obtain ⟨t, ht⟩ := hnames
      rw [parse_of_names ht, parse_of_names (hwords ▸ ht), hsettings]
    · rw [parse_of_not_names hnames, parse_of_not_names (hwords ▸ hnames)]

/-- An option takes what is behind it, also a word that names a task. -/
example : parse ["--config", "stage", "-v", "run"] = .ok ⟨.qemu, { config := some ⟨"stage"⟩, verbose := true }⟩ :=
  rfl

end BootDisk.Options
