import BootDisk.Proofs.Toml.Distinct
import BootDisk.Proofs.Toml.Written

/-!
# Written documents read back

Each line that is written is one statement, each section with its fields one block, and each block a table of its own under the section's
name. So a document with distinct names reads back as the tree that was meant (`Toml.parse_text`).
-/

namespace BootDisk.Toml

/-! ## Documents that can be written -/

/-- A name that needs no quotes. -/
def IsWord (name : String) : Prop :=
  name.toList ≠ [] ∧ ∀ c ∈ name.toList, isKeyChar c = true

instance (name : String) : Decidable (IsWord name) :=
  decidable_of_iff (name.toList ≠ [] ∧ name.toList.all isKeyChar = true) (and_congr_right fun _ => List.all_eq_true)

/-- The names in a document are words, none twice in one place, and its values can be written. -/
structure Sections.Writable (doc : Sections) : Prop where
  distinct : (doc.map Prod.fst).Nodup
  words : ∀ s ∈ doc, IsWord s.1
  fields_distinct : ∀ s ∈ doc, (s.2.map Prod.fst).Nodup
  fields_words : ∀ s ∈ doc, ∀ f ∈ s.2, IsWord f.1 ∧ f.2.Writable

/-- The entries are the fields, one after the other. -/
def FieldsRead (fields : List (String × Item)) (es : Entries) : Prop :=
  List.Forall₂ (fun f e => e.1.name = f.1 ∧ f.2.Is e.2) fields es

/-- The entries are the sections, one after the other, each a table of its fields. -/
def SectionsRead (doc : Sections) (es : Entries) : Prop :=
  List.Forall₂ (fun s e => e.1.name = s.1 ∧ ∃ sub span, e.2 = .table .header sub span ∧ FieldsRead s.2 sub) doc es

/-! ## Keys -/

variable {name : String} {c : Char} {cs rest : List Char}

theorem isSpace_of_isKeyChar (h : isKeyChar c = true) : isSpace c = false := by
  rw [isSpace, Bool.or_eq_false_iff, beq_eq_false_iff_ne, beq_eq_false_iff_ne]
  constructor
  · rintro rfl
    cases h
  · rintro rfl
    cases h

theorem dropSpace_of_not_isSpace (h : isSpace c = false) : dropSpace (c :: cs) = c :: cs :=
  List.dropWhile_cons_of_neg (by rw [h]; decide)

/-- A word is one part of a key, up to the character behind it. -/
theorem readKeyPart_word (h : IsWord name) (hc : isKeyChar c = false) (rest : List Char) :
    ∃ span, readKeyPart (name.toList ++ c :: rest) = some (⟨name, span⟩, c :: rest) := by
  have htake : (name.toList ++ c :: rest).takeWhile isKeyChar = name.toList := by
    rw [List.takeWhile_append_of_pos h.2, List.takeWhile_cons_of_neg (by rw [hc]; decide), List.append_nil]
  have hdrop : (name.toList ++ c :: rest).dropWhile isKeyChar = c :: rest := by
    rw [List.dropWhile_append_of_pos h.2, List.dropWhile_cons_of_neg (by rw [hc]; decide)]
  obtain ⟨d, ds, hds⟩ := List.exists_cons_of_ne_nil h.1
  have hd := h.2 d (by rw [hds]; exact List.mem_cons_self)
  refine ⟨⟨(name.toList ++ c :: rest).length, (c :: rest).length⟩, ?_⟩
  rw [readKeyPart.eq_def]
  split
  · next heq =>
    rw [hds, List.cons_append] at heq
    cases heq
    cases hd
  · next heq =>
    rw [hds, List.cons_append] at heq
    cases heq
    cases hd
  · rw [htake, hdrop]
    dsimp only
    rw [if_neg h.1, String.ofList_toList]

/-- A key that is one word, when no dot follows it. -/
theorem readKey_word (h : IsWord name) (hc : isKeyChar c = false) (hdot : ∀ more, dropSpace (c :: rest) ≠ '.' :: more) :
    ∃ k : Key, k.name = name ∧ readKey (name.toList ++ c :: rest) = some ([k], dropSpace (c :: rest)) := by
  obtain ⟨span, hspan⟩ := readKeyPart_word h hc rest
  obtain ⟨d, ds, hds⟩ := List.exists_cons_of_ne_nil h.1
  have hspace := isSpace_of_isKeyChar (h.2 d (by rw [hds]; exact List.mem_cons_self))
  have hdrop : dropSpace (name.toList ++ c :: rest) = name.toList ++ c :: rest := by
    rw [hds, List.cons_append, dropSpace_of_not_isSpace hspace]
  refine ⟨⟨name, span⟩, rfl, ?_⟩
  rw [readKey, maxDepth, readKeyParts, hdrop, hspan]
  simp only [Option.bind_eq_bind, Option.bind_some]

/-! ## Lines -/

theorem exists_word_eq_cons (h : IsWord name) : ∃ d ds, name.toList = d :: ds ∧ isKeyChar d = true := by
  obtain ⟨d, ds, hds⟩ := List.exists_cons_of_ne_nil h.1
  exact ⟨d, ds, hds, h.2 d (by rw [hds]; exact List.mem_cons_self)⟩

/-- The line of a field is a pair. -/
theorem readStatement_field {f : String × Item} (hname : IsWord f.1) (hvalue : f.2.Writable) (rest : List Char) :
    ∃ k n, k.name = f.1 ∧ f.2.Is n ∧ readStatement (fieldChars f ++ rest) = some (.pair [] k n, rest) := by
  obtain ⟨name, item⟩ := f
  obtain ⟨d, ds, hds, hd⟩ := exists_word_eq_cons hname
  have hchars : fieldChars (name, item) ++ rest = name.toList ++ ' ' :: '=' :: ' ' :: (item.chars ++ '\n' :: rest) := by
    simp [fieldChars]
  have hequals : dropSpace (' ' :: '=' :: ' ' :: (item.chars ++ '\n' :: rest)) = '=' :: ' ' :: (item.chars ++ '\n' :: rest) := rfl
  have hdot : ∀ more, dropSpace (' ' :: '=' :: ' ' :: (item.chars ++ '\n' :: rest)) ≠ '.' :: more := by
    rw [hequals]
    exact nofun
  obtain ⟨k, hk, hkey⟩ := readKey_word hname (by decide) hdot
  obtain ⟨n, hread, hn⟩ := readValue_chars hvalue 78 rest
  have hspace : dropSpace (' ' :: (item.chars ++ '\n' :: rest)) = item.chars ++ '\n' :: rest := dropSpace_chars item _
  have hpair : readPair (readValue maxDepth) (fieldChars (name, item) ++ rest) = some (([], k, n), '\n' :: rest) := by
    rw [readPair, hchars, hkey, hequals]
    change Option.bind (readValue 79 (dropSpace (' ' :: (item.chars ++ '\n' :: rest)))) _ = _
    rw [hspace, hread]
    rfl
  refine ⟨k, n, hk, hn, ?_⟩
  rw [readStatement.eq_def]
  split
  · next heq =>
    rw [hchars, hds, List.cons_append] at heq
    cases heq
    cases hd
  · rw [hpair]
    rfl

/-- The line of a header is a header. -/
theorem readStatement_header (hname : IsWord name) (rest : List Char) :
    ∃ k span, k.name = name ∧ readStatement ('[' :: (name.toList ++ ']' :: '\n' :: rest)) = some (.header false [k] span, rest) := by
  obtain ⟨d, ds, hds, hd⟩ := exists_word_eq_cons hname
  have hbracket : dropSpace (']' :: '\n' :: rest) = ']' :: '\n' :: rest := rfl
  have hdot : ∀ more, dropSpace (']' :: '\n' :: rest) ≠ '.' :: more := by
    rw [hbracket]
    exact nofun
  obtain ⟨k, hk, hkey⟩ := readKey_word hname (by decide) hdot
  have hheader : readHeader ('[' :: (name.toList ++ ']' :: '\n' :: rest)) =
      some (.header false [k] ⟨('[' :: (name.toList ++ ']' :: '\n' :: rest)).length, ('\n' :: rest).length⟩, '\n' :: rest) := by
    rw [readHeader.eq_def]
    split
    · next heq =>
      rw [hds, List.cons_append] at heq
      cases heq
      cases hd
    · next heq =>
      cases heq
      rw [hkey, hbracket]
      rfl
    · next hnot => exact absurd rfl (hnot _)
  refine ⟨k, ⟨('[' :: (name.toList ++ ']' :: '\n' :: rest)).length, ('\n' :: rest).length⟩, hk, ?_⟩
  rw [readStatement, hheader]
  rfl

/-- A statement at the front of a text. -/
theorem readStatements_cons {steps : Nat} {s : Statement} (hspace : isSpace c = false) (hc : c ≠ '#' ∧ c ≠ '\n' ∧ c ≠ '\r')
    (h : readStatement (c :: cs) = some (s, rest)) :
    readStatements (steps + 1) (c :: cs) = (readStatements steps rest).map (s :: ·) := by
  obtain ⟨hhash, hnewline, hreturn⟩ := hc
  have hline : (c == '#' || c == '\n' || c == '\r') = false := by simp [hhash, hnewline, hreturn]
  rw [readStatements, dropSpace_of_not_isSpace hspace]
  simp only [hline, Bool.false_eq_true, if_false, h, Option.bind_eq_bind, Option.bind_some]
  cases readStatements steps rest <;> rfl

/-! ## Fields and sections -/

/-- A section as it was read: its key, where its header stands, and its entries. -/
structure Opened where
  key : Key
  span : Span
  entries : Entries

/-- The statement of an entry. -/
def pairOf (e : Key × Node) : Statement :=
  .pair [] e.1 e.2

/-- The statements of a section: its header and its entries. -/
def Opened.statements (o : Opened) : List Statement :=
  .header false [o.key] o.span :: o.entries.map pairOf

/-- The section was read from what was written. -/
def Opened.Reads (s : String × List (String × Item)) (o : Opened) : Prop :=
  o.key.name = s.1 ∧ FieldsRead s.2 o.entries

/-- The lines of fields are their statements, whatever follows. The induction is on the fields. -/
theorem readStatements_fields {fields : List (String × Item)} (h : ∀ f ∈ fields, IsWord f.1 ∧ f.2.Writable) (steps : Nat)
    (rest : List Char) :
    ∃ es, FieldsRead fields es ∧
      readStatements (fields.length + steps) (fields.flatMap fieldChars ++ rest) = (readStatements steps rest).map (es.map pairOf ++ ·) := by
  induction fields with
  | nil =>
    refine ⟨[], .nil, ?_⟩
    simp
  | cons f fields ih =>
    obtain ⟨⟨hname, hvalue⟩, hfields⟩ := List.forall_mem_cons.1 h
    obtain ⟨es, hes, hread⟩ := ih hfields
    obtain ⟨k, n, hk, hn, hline⟩ := readStatement_field hname hvalue (fields.flatMap fieldChars ++ rest)
    obtain ⟨d, ds, hds, hd⟩ := exists_word_eq_cons hname
    have hmark : d ≠ '#' ∧ d ≠ '\n' ∧ d ≠ '\r' := by
      refine ⟨?_, ?_, ?_⟩ <;>
      · rintro rfl
        cases hd
    have hchars : fieldChars f ++ (fields.flatMap fieldChars ++ rest) =
        d :: (ds ++ ' ' :: '=' :: ' ' :: f.2.chars ++ ['\n'] ++ (fields.flatMap fieldChars ++ rest)) := by
      rw [fieldChars, hds]
      simp
    have hcount : (f :: fields).length + steps = fields.length + steps + 1 := by
      rw [List.length_cons]
      omega
    refine ⟨(k, n) :: es, .cons ⟨hk, hn⟩ hes, ?_⟩
    rw [hchars] at hline
    rw [List.flatMap_cons, List.append_assoc, hchars, hcount, readStatements_cons (isSpace_of_isKeyChar hd) hmark hline, hread, Option.map_map]
    rfl

/-- How many statements a document has. -/
def Sections.lineCount : Sections → Nat
  | [] => 0
  | s :: doc => s.2.length + 1 + Sections.lineCount doc

/-- The lines of a document are the statements of its sections. -/
theorem readStatements_sections {doc : Sections} (hwords : ∀ s ∈ doc, IsWord s.1)
    (hfields : ∀ s ∈ doc, ∀ f ∈ s.2, IsWord f.1 ∧ f.2.Writable) (steps : Nat) :
    ∃ os, List.Forall₂ Opened.Reads doc os ∧
      readStatements (Sections.lineCount doc + (steps + 1)) (doc.flatMap sectionChars) = some (os.flatMap Opened.statements) := by
  induction doc with
  | nil =>
    refine ⟨[], .nil, ?_⟩
    rw [Sections.lineCount, Nat.zero_add]
    rfl
  | cons s doc ih =>
    obtain ⟨hword, hwords⟩ := List.forall_mem_cons.1 hwords
    obtain ⟨hfirst, hfields⟩ := List.forall_mem_cons.1 hfields
    obtain ⟨os, hos, hread⟩ := ih hwords hfields
    obtain ⟨es, hes, hentries⟩ := readStatements_fields hfirst (Sections.lineCount doc + (steps + 1)) (doc.flatMap sectionChars)
    obtain ⟨k, span, hk, hheader⟩ := readStatement_header hword (s.2.flatMap fieldChars ++ doc.flatMap sectionChars)
    refine ⟨⟨k, span, es⟩ :: os, .cons ⟨hk, hes⟩ hos, ?_⟩
    have hchars : (s :: doc).flatMap sectionChars =
        '[' :: (s.1.toList ++ ']' :: '\n' :: (s.2.flatMap fieldChars ++ doc.flatMap sectionChars)) := by
      rw [List.flatMap_cons, sectionChars]
      simp
    have hcount : Sections.lineCount (s :: doc) + (steps + 1) = s.2.length + (Sections.lineCount doc + (steps + 1)) + 1 := by
      rw [Sections.lineCount]
      omega
    rw [hchars, hcount, readStatements_cons (by decide) (by decide) hheader, hentries, hread]
    rfl

/-! ## Blocks -/

/-- The pair of an entry. -/
def pairAt (e : Key × Node) : Pair :=
  ([], e.1, e.2)

/-- The block of a section. -/
def Opened.block (o : Opened) : Block :=
  ⟨false, [o.key], o.span, o.entries.map pairAt⟩

theorem blocks_pairs (es : Entries) (ss : List Statement) :
    blocks (es.map pairOf ++ ss) = (es.map pairAt ++ (blocks ss).1, (blocks ss).2) := by
  induction es with
  | nil => rfl
  | cons e es ih =>
    rw [List.map_cons, List.cons_append, pairOf, blocks, ih]
    rfl

theorem blocks_statements (os : List Opened) : blocks (os.flatMap Opened.statements) = ([], os.map Opened.block) := by
  induction os with
  | nil => rfl
  | cons o os ih =>
    rw [List.flatMap_cons, Opened.statements, List.cons_append, blocks, blocks_pairs, ih]
    simp [Opened.block]

/-- Entries with new names are added behind those that are there. -/
theorem addPairs_map {es acc : Entries} (h : (acc ++ es).names.Nodup) : addPairs acc (es.map pairAt) = some (acc ++ es) := by
  induction es generalizing acc with
  | nil =>
    rw [List.append_nil]
    rfl
  | cons e es ih =>
    have hfresh : acc.find? e.1.name = none := by
      rw [Entries.find?_eq_none_iff]
      intro hmem
      rw [Entries.names, List.map_append, List.nodup_append] at h
      exact h.2.2 _ hmem _ List.mem_cons_self rfl
    have hpair : addPair acc [] e.1 e.2 = some (acc ++ [e]) := by
      rw [addPair, changeAt, if_neg (by simp), hfresh]
    rw [List.map_cons, addPairs, List.foldlM_cons]
    change Option.bind (addPair acc [] e.1 e.2) _ = _
    rw [hpair, Option.bind_some]
    have hassoc : acc ++ e :: es = acc ++ [e] ++ es := by simp
    rw [hassoc] at h ⊢
    exact ih h

/-- A block under a new name is added as a table of its own. -/
theorem addBlock_opened {root : Entries} {o : Opened} (hfresh : root.find? o.key.name = none) (hes : o.entries.names.Nodup) :
    addBlock root o.block = some (root ++ [(o.key, .table .header o.entries (some o.block.extent))]) := by
  have hpairs : addPairs [] (o.entries.map pairAt) = some o.entries := addPairs_map hes
  have hlast : o.block.path.getLast? = some o.key := rfl
  have hinit : o.block.path.dropLast = [] := rfl
  simp only [addBlock, hlast, Option.bind_eq_bind, Option.bind_some]
  rw [hinit, changeAt, hfresh]
  change Option.bind (addPairs [] (o.entries.map pairAt)) _ = _
  rw [hpairs]
  rfl

/-- Sections with new names are added behind those that are there. -/
theorem addBlocks_map {os : List Opened} {root : Entries} (hnames : (root.names ++ os.map fun o => o.key.name).Nodup)
    (hes : ∀ o ∈ os, o.entries.names.Nodup) :
    (os.map Opened.block).foldlM addBlock root =
      some (root ++ os.map fun o => (o.key, Node.table .header o.entries (some o.block.extent))) := by
  induction os generalizing root with
  | nil =>
    simp
  | cons o os ih =>
    obtain ⟨ho, hos⟩ := List.forall_mem_cons.1 hes
    have hfresh : root.find? o.key.name = none := by
      rw [Entries.find?_eq_none_iff]
      intro hmem
      rw [List.nodup_append] at hnames
      exact hnames.2.2 _ hmem _ List.mem_cons_self rfl
    rw [List.map_cons, List.foldlM_cons, addBlock_opened hfresh ho]
    change List.foldlM addBlock _ (os.map Opened.block) = _
    rw [ih (by simpa [Entries.names] using hnames) hos]
    simp

theorem FieldsRead.names {fields : List (String × Item)} {es : Entries} (h : FieldsRead fields es) : es.names = fields.map Prod.fst := by
  induction h with
  | nil => rfl
  | cons hfe _ ih =>
    rw [Entries.names, List.map_cons, List.map_cons, hfe.1]
    exact congrArg _ ih

theorem names_of_reads {doc : Sections} {os : List Opened} (h : List.Forall₂ Opened.Reads doc os) :
    (os.map fun o => o.key.name) = doc.map Prod.fst := by
  induction h with
  | nil => rfl
  | cons hso _ ih => rw [List.map_cons, List.map_cons, hso.1, ih]

theorem entries_distinct_of_reads {doc : Sections} {os : List Opened} (h : List.Forall₂ Opened.Reads doc os)
    (hfields : ∀ s ∈ doc, (s.2.map Prod.fst).Nodup) : ∀ o ∈ os, o.entries.names.Nodup := by
  induction h with
  | nil => exact nofun
  | cons hso _ ih =>
    obtain ⟨hs, hdoc⟩ := List.forall_mem_cons.1 hfields
    refine List.forall_mem_cons.2 ⟨?_, ih hdoc⟩
    rw [hso.2.names]
    exact hs

theorem sectionsRead_of_reads {doc : Sections} {os : List Opened} (h : List.Forall₂ Opened.Reads doc os) :
    SectionsRead doc (os.map fun o => (o.key, Node.table .header o.entries (some o.block.extent))) := by
  induction h with
  | nil => exact .nil
  | cons hso _ ih => exact .cons ⟨hso.1, _, _, rfl, hso.2⟩ ih

/-- A document has at least one character for each statement. -/
theorem lineCount_le (doc : Sections) : Sections.lineCount doc ≤ (doc.flatMap sectionChars).length := by
  induction doc with
  | nil => exact Nat.le_refl _
  | cons s doc ih =>
    have hfields (fields : List (String × Item)) : fields.length ≤ (fields.flatMap fieldChars).length := by
      induction fields with
      | nil => exact Nat.le_refl _
      | cons f fields ih =>
        rw [List.flatMap_cons, fieldChars]
        simp only [List.length_append, List.length_cons, List.length_nil]
        omega
    have hs := hfields s.2
    rw [Sections.lineCount, List.flatMap_cons, sectionChars]
    simp only [List.length_append, List.length_cons, List.length_nil]
    omega

/-- No document that is written starts with a byte order mark. -/
theorem dropByteOrderMark_sections (doc : Sections) : dropByteOrderMark (doc.flatMap sectionChars) = doc.flatMap sectionChars := by
  cases doc with
  | nil => rfl
  | cons s doc =>
    rw [List.flatMap_cons, sectionChars, List.cons_append, List.cons_append, List.cons_append, dropByteOrderMark, if_neg (by decide)]

/-- A document that was written reads back as the tree that was meant. -/
theorem parse_text {doc : Sections} (h : doc.Writable) : ∃ es, parse doc.text = some es ∧ SectionsRead doc es := by
  obtain ⟨extra, hextra⟩ := Nat.exists_eq_add_of_le (lineCount_le doc)
  obtain ⟨os, hos, hread⟩ := readStatements_sections h.words h.fields_words extra
  have hstatements : statements doc.text.toList = some (os.flatMap Opened.statements) := by
    rw [statements, Sections.text, String.toList_ofList, dropByteOrderMark_sections, hextra, Nat.add_assoc, hread]
  have hnames : (Entries.names [] ++ os.map fun o => o.key.name).Nodup := by
    rw [names_of_reads hos]
    exact h.distinct
  refine ⟨_, ?_, sectionsRead_of_reads hos⟩
  rw [parse, hstatements, Option.bind_some, ofStatements, blocks_statements]
  change List.foldlM addBlock [] (os.map Opened.block) = _
  rw [addBlocks_map hnames (entries_distinct_of_reads hos h.fields_distinct), List.nil_append]

end BootDisk.Toml
