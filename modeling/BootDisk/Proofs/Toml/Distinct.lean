import BootDisk.Toml.Document

/-!
# No key comes up twice

In the tree of a document no table has a key twice, neither the outermost one nor any inside a value (`Toml.distinct_of_parse`). Entries are
only ever put behind others under a key that was looked for in vain, and given other values in their place; the readers of values put the
tables in braces together in the same way.
-/

namespace BootDisk.Toml

variable {es es' : Entries} {name : String} {k : Key} {n m : Node} {cs rest : List Char}

/-! ## Looking keys up -/

namespace Entries

/-- The names of the keys in order. -/
def names (es : Entries) : List String :=
  es.map fun e => e.1.name

theorem find?_eq_none_iff : es.find? name = none ↔ name ∉ es.names := by
  induction es with
  | nil => simp [find?, names]
  | cons e es ih =>
    obtain ⟨k, n⟩ := e
    rw [find?, names, List.map_cons, List.mem_cons, not_or]
    by_cases h : k.name = name
    · simp [h]
    · rw [if_neg h, ih]
      exact ⟨fun hes => ⟨Ne.symm h, hes⟩, And.right⟩

theorem mem_of_find? (h : es.find? name = some n) : ∃ k, k.name = name ∧ (k, n) ∈ es := by
  induction es with
  | nil => cases h
  | cons e es ih =>
    obtain ⟨k, m⟩ := e
    rw [find?] at h
    split at h
    · next hk =>
      cases h
      exact ⟨k, hk, List.mem_cons_self⟩
    · obtain ⟨k', hk', hmem⟩ := ih h
      exact ⟨k', hk', List.mem_cons_of_mem _ hmem⟩

/-- If no key comes up twice, the value of a key is the one that stands with it. -/
theorem find?_of_mem (hes : es.names.Nodup) (h : (k, n) ∈ es) : es.find? k.name = some n := by
  induction es with
  | nil => cases h
  | cons e es ih =>
    obtain ⟨hfirst, hrest⟩ := List.nodup_cons.1 hes
    rcases List.mem_cons.1 h with rfl | h
    · exact if_pos rfl
    · have hne : e.1.name ≠ k.name := by
        intro heq
        have hmem : k.name ∈ List.map (fun e : Key × Node => e.1.name) es := List.mem_map_of_mem (f := fun e : Key × Node => e.1.name) h
        rw [← heq] at hmem
        exact hfirst hmem
      rw [find?, if_neg hne]
      exact ih hrest h

theorem names_replace : (es.replace name n).names = es.names := by
  unfold names replace
  rw [List.map_map]
  refine List.map_congr_left fun e _ => ?_
  dsimp only [Function.comp_apply]
  split <;> rfl

theorem mem_replace {e : Key × Node} (h : e ∈ es.replace name n) : e ∈ es ∨ e.2 = n := by
  obtain ⟨⟨k, m⟩, hmem, rfl⟩ := List.mem_map.1 h
  dsimp only
  split
  · exact Or.inr rfl
  · exact Or.inl hmem

theorem mem_names_erase : ¬ name ∈ (es.erase name).names := by
  rintro h
  obtain ⟨e, he, hname⟩ := List.mem_map.1 h
  have hne := (List.mem_filter.1 he).2
  simp only [ne_eq, decide_not, Bool.not_eq_true', decide_eq_false_iff_not] at hne
  exact hne hname

end Entries

/-! ## Distinct keys all the way down -/

/-- No table in the value has a key twice. -/
inductive Node.Distinct : Node → Prop where
  | string {s span} : Distinct (.string s span)
  | integer {i span} : Distinct (.integer i span)
  | floating {x span} : Distinct (.floating x span)
  | boolean {b span} : Distinct (.boolean b span)
  | moment {span} : Distinct (.moment span)
  | array {items span} : (∀ n ∈ items, n.Distinct) → Distinct (.array items span)
  | table {form es span} : (Entries.names es).Nodup → (∀ e ∈ es, e.2.Distinct) → Distinct (.table form es span)
  | tables {items span} : (∀ n ∈ items, n.Distinct) → Distinct (.tables items span)

/-- No key comes up twice, nor does one in any of the values. -/
structure Entries.Distinct (es : Entries) : Prop where
  names : es.names.Nodup
  values : ∀ e ∈ es, e.2.Distinct

theorem Node.Distinct.entries {form : Form} {span : Option Span} (h : (Node.table form es span).Distinct) : es.Distinct := by
  cases h with
  | table hnames hvalues => exact ⟨hnames, hvalues⟩

theorem Node.Distinct.items {items : List Node} (h : n.Distinct) (hitems : n = .array items span ∨ n = .tables items span) :
    ∀ m ∈ items, m.Distinct := by
  rcases hitems with rfl | rfl
  · cases h with
    | array h => exact h
  · cases h with
    | tables h => exact h

namespace Entries.Distinct

theorem nil : Entries.Distinct [] :=
  ⟨List.nodup_nil, nofun⟩

theorem toTable {form : Form} {span : Option Span} (h : es.Distinct) : (Node.table form es span).Distinct :=
  .table h.names h.values

theorem of_find? (h : es.Distinct) (hn : es.find? name = some n) : n.Distinct := by
  obtain ⟨k, -, hmem⟩ := mem_of_find? hn
  exact h.values _ hmem

theorem append (h : es.Distinct) (hk : k.name ∉ es.names) (hn : n.Distinct) : Entries.Distinct (es ++ [(k, n)]) := by
  constructor
  · rw [Entries.names, List.map_append, List.nodup_append]
    refine ⟨h.names, by simp, ?_⟩
    intro a ha b hb
    rw [List.map_cons, List.map_nil, List.mem_singleton] at hb
    rw [hb]
    rintro rfl
    exact hk ha
  · intro e he
    rcases List.mem_append.1 he with he | he
    · exact h.values e he
    · rw [List.mem_singleton.1 he]
      exact hn

theorem replace (h : es.Distinct) (hn : n.Distinct) : (es.replace name n).Distinct := by
  constructor
  · rw [names_replace]
    exact h.names
  · intro e he
    rcases mem_replace he with he | he
    · exact h.values e he
    · exact he ▸ hn

theorem erase (h : es.Distinct) : (es.erase name).Distinct :=
  ⟨h.names.sublist (List.filter_sublist.map _), fun e he => h.values e (List.mem_filter.1 he).1⟩

end Entries.Distinct

/-! ## Adding to tables -/

theorem distinct_changeLast {f : Node → Option Node} {items items' : List Node} (hf : ∀ n m, n.Distinct → f n = some m → m.Distinct)
    (hitems : ∀ n ∈ items, n.Distinct) (h : changeLast f items = some items') : ∀ n ∈ items', n.Distinct := by
  induction items generalizing items' with
  | nil => cases h
  | cons n ns ih =>
    cases ns with
    | nil =>
      obtain ⟨m, hm, rfl⟩ := Option.map_eq_some_iff.1 h
      intro x hx
      rw [List.mem_singleton.1 hx]
      exact hf n m (hitems n List.mem_cons_self) hm
    | cons m ns =>
      obtain ⟨ms, hms, rfl⟩ := Option.map_eq_some_iff.1 h
      intro x hx
      rcases List.mem_cons.1 hx with rfl | hx
      · exact hitems x List.mem_cons_self
      · exact ih (fun n hn => hitems n (List.mem_cons_of_mem _ hn)) hms x hx

/-- A change that keeps keys distinct in the table that a path leads to keeps them so on the way there. The induction is on the path. -/
theorem distinct_changeAt {dotted : Bool} {change : Form → Entries → Option Entries} {path : List Key} {form : Form}
    (hchange : ∀ form es es', es.Distinct → change form es = some es' → es'.Distinct) (hes : es.Distinct)
    (h : changeAt dotted change path form es = some es') : es'.Distinct := by
  induction path generalizing form es es' with
  | nil => exact hchange form es es' hes h
  | cons k path ih =>
    unfold changeAt at h
    split at h
    · next hnone =>
      obtain ⟨sub, hsub, rfl⟩ := Option.map_eq_some_iff.1 h
      exact hes.append (Entries.find?_eq_none_iff.1 hnone) (ih .nil hsub).toTable
    · next hsome =>
      split at h
      · cases h
      · obtain ⟨sub, hsub, rfl⟩ := Option.map_eq_some_iff.1 h
        exact hes.replace (ih (hes.of_find? hsome).entries hsub).toTable
    · next items span hsome =>
      obtain ⟨items', hitems, rfl⟩ := Option.map_eq_some_iff.1 h
      refine hes.replace (.tables (distinct_changeLast ?_ ((hes.of_find? hsome).items (Or.inr rfl)) hitems))
      intro n m hn hm
      split at hm
      · obtain ⟨sub, hsub, rfl⟩ := Option.map_eq_some_iff.1 hm
        exact (ih hn.entries hsub).toTable
      · cases hm
    · cases h

theorem distinct_addPair {path : List Key} (hes : es.Distinct) (hn : n.Distinct) (h : addPair es path k n = some es') : es'.Distinct := by
  refine distinct_changeAt ?_ hes h
  intro form es es' hes h
  split at h
  · cases h
  · split at h
    · cases h
    · next hnone =>
      cases h
      exact hes.append (Entries.find?_eq_none_iff.1 hnone) hn

theorem distinct_addPairs {ps : List Pair} (hes : es.Distinct) (hps : ∀ p ∈ ps, p.2.2.Distinct) (h : addPairs es ps = some es') :
    es'.Distinct := by
  induction ps generalizing es with
  | nil =>
    cases h
    exact hes
  | cons p ps ih =>
    rw [addPairs, List.foldlM_cons] at h
    obtain ⟨mid, hmid, hrest⟩ := Option.bind_eq_some_iff.1 h
    exact ih (distinct_addPair hes (hps p List.mem_cons_self) hmid) (fun q hq => hps q (List.mem_cons_of_mem _ hq)) hrest

theorem distinct_addBlock {b : Block} (hes : es.Distinct) (hb : ∀ p ∈ b.pairs, p.2.2.Distinct) (h : addBlock es b = some es') :
    es'.Distinct := by
  obtain ⟨key, -, h⟩ := Option.bind_eq_some_iff.1 h
  refine distinct_changeAt ?_ hes h
  intro form es es' hes h
  split at h
  · next hnone =>
    obtain ⟨sub, hsub, h⟩ := Option.bind_eq_some_iff.1 h
    cases h
    have htable : (Node.table .header sub (some b.extent)).Distinct := (distinct_addPairs .nil hb hsub).toTable
    refine hes.append (Entries.find?_eq_none_iff.1 hnone) ?_
    split
    · exact .tables fun n hn => List.mem_singleton.1 hn ▸ htable
    · exact htable
  · next hsome =>
    split at h
    · cases h
    · obtain ⟨sub, hsub, h⟩ := Option.bind_eq_some_iff.1 h
      cases h
      exact hes.erase.append Entries.mem_names_erase (distinct_addPairs (hes.of_find? hsome).entries hb hsub).toTable
  · next items span hsome =>
    split at h
    · obtain ⟨sub, hsub, h⟩ := Option.bind_eq_some_iff.1 h
      cases h
      refine hes.replace (.tables fun n hn => ?_)
      rcases List.mem_append.1 hn with hn | hn
      · exact (hes.of_find? hsome).items (Or.inr rfl) n hn
      · exact List.mem_singleton.1 hn ▸ (distinct_addPairs .nil hb hsub).toTable
    · cases h
  · cases h

/-! ## Reading values -/

theorem distinct_readLeaf (h : readLeaf cs = some (n, rest)) : n.Distinct := by
  unfold readLeaf at h
  split at h
  · obtain ⟨_, -, h⟩ := Option.map_eq_some_iff.1 h
    cases h
    exact .string
  · obtain ⟨_, -, h⟩ := Option.map_eq_some_iff.1 h
    cases h
    exact .string
  · unfold readBareValue at h
    obtain ⟨b, -, h⟩ := Option.map_eq_some_iff.1 h
    cases b with
    | integer i =>
      cases h
      exact .integer
    | floating x =>
      cases h
      exact .floating
    | boolean b =>
      cases h
      exact .boolean
    | moment =>
      cases h
      exact .moment

section Values

variable {value : List Char → Option (Node × List Char)} (hvalue : ∀ {cs n rest}, value cs = some (n, rest) → n.Distinct) {steps : Nat}
include hvalue

theorem distinct_readItems {ns : List Node} (h : readItems value steps cs = some (ns, rest)) : ∀ n ∈ ns, n.Distinct := by
  induction steps generalizing cs ns with
  | zero => cases h
  | succ steps ih =>
    unfold readItems at h
    split at h
    · cases h
      exact nofun
    · obtain ⟨⟨n, after⟩, hn, h⟩ := Option.bind_eq_some_iff.1 h
      dsimp only at h
      split at h
      · obtain ⟨⟨ms, last⟩, hms, h⟩ := Option.bind_eq_some_iff.1 h
        cases h
        intro x hx
        rcases List.mem_cons.1 hx with rfl | hx
        · exact hvalue hn
        · exact ih hms x hx
      · cases h
        intro x hx
        rw [List.mem_singleton.1 hx]
        exact hvalue hn
      · cases h

theorem distinct_readPair {path : List Key} (h : readPair value cs = some ((path, k, n), rest)) : n.Distinct := by
  obtain ⟨⟨keys, after⟩, -, h⟩ := Option.bind_eq_some_iff.1 h
  obtain ⟨key, -, h⟩ := Option.bind_eq_some_iff.1 h
  dsimp only at h
  split at h
  · obtain ⟨⟨m, last⟩, hm, h⟩ := Option.bind_eq_some_iff.1 h
    cases h
    exact hvalue hm
  · cases h

theorem distinct_readPairs (hes : es.Distinct) (h : readPairs value steps es cs = some (es', rest)) : es'.Distinct := by
  induction steps generalizing es cs with
  | zero => cases h
  | succ steps ih =>
    obtain ⟨⟨⟨path, key, n⟩, after⟩, hpair, h⟩ := Option.bind_eq_some_iff.1 h
    obtain ⟨mid, hmid, h⟩ := Option.bind_eq_some_iff.1 h
    have hadded := distinct_addPair hes (distinct_readPair hvalue hpair) hmid
    split at h
    · exact ih hadded h
    · cases h
      exact hadded
    · cases h

end Values

theorem distinct_readValue {depth : Nat} (h : readValue depth cs = some (n, rest)) : n.Distinct := by
  induction depth generalizing cs n rest with
  | zero => exact distinct_readLeaf h
  | succ depth ih =>
    unfold readValue at h
    split at h
    · obtain ⟨⟨ns, after⟩, hns, h⟩ := Option.map_eq_some_iff.1 h
      cases h
      exact .array (distinct_readItems ih hns)
    · split at h
      · cases h
        exact Entries.Distinct.nil.toTable
      · obtain ⟨⟨es, after⟩, hes, h⟩ := Option.map_eq_some_iff.1 h
        cases h
        exact (distinct_readPairs ih .nil hes).toTable
    · exact distinct_readLeaf h

/-! ## Documents -/

/-- No table in the value that a statement gives to a key has a key twice. -/
def Statement.Distinct : Statement → Prop
  | .header _ _ _ => True
  | .pair _ _ n => n.Distinct

theorem distinct_readHeader {s : Statement} (h : readHeader cs = some (s, rest)) : s.Distinct := by
  unfold readHeader at h
  split at h
  · obtain ⟨⟨keys, after⟩, -, h⟩ := Option.bind_eq_some_iff.1 h
    dsimp only at h
    split at h
    · cases h
      trivial
    · cases h
  · obtain ⟨⟨keys, after⟩, -, h⟩ := Option.bind_eq_some_iff.1 h
    dsimp only at h
    split at h
    · cases h
      trivial
    · cases h
  · cases h

theorem distinct_readStatement {s : Statement} (h : readStatement cs = some (s, rest)) : s.Distinct := by
  unfold readStatement at h
  dsimp only at h
  split at h
  · obtain ⟨⟨s', after⟩, hs, h⟩ := Option.bind_eq_some_iff.1 h
    obtain ⟨last, -, h⟩ := Option.bind_eq_some_iff.1 h
    cases h
    exact distinct_readHeader hs
  · obtain ⟨⟨s', after⟩, hs, h⟩ := Option.bind_eq_some_iff.1 h
    obtain ⟨last, -, h⟩ := Option.bind_eq_some_iff.1 h
    cases h
    obtain ⟨⟨⟨path, key, n⟩, after⟩, hpair, hs⟩ := Option.map_eq_some_iff.1 hs
    cases hs
    exact distinct_readPair distinct_readValue hpair

theorem distinct_readStatements {steps : Nat} {ss : List Statement} (h : readStatements steps cs = some ss) : ∀ s ∈ ss, s.Distinct := by
  induction steps generalizing cs ss with
  | zero => cases h
  | succ steps ih =>
    unfold readStatements at h
    split at h
    · cases h
      exact nofun
    · split at h
      · obtain ⟨after, -, h⟩ := Option.bind_eq_some_iff.1 h
        exact ih h
      · obtain ⟨⟨s, after⟩, hs, h⟩ := Option.bind_eq_some_iff.1 h
        obtain ⟨ss, hss, h⟩ := Option.bind_eq_some_iff.1 h
        cases h
        intro x hx
        rcases List.mem_cons.1 hx with rfl | hx
        · exact distinct_readStatement hs
        · exact ih hss x hx

/-- The blocks of a document hold the values of its statements. -/
theorem distinct_blocks {ss : List Statement} (h : ∀ s ∈ ss, s.Distinct) :
    (∀ p ∈ (blocks ss).1, p.2.2.Distinct) ∧ ∀ b ∈ (blocks ss).2, ∀ p ∈ b.pairs, p.2.2.Distinct := by
  induction ss with
  | nil => exact ⟨nofun, nofun⟩
  | cons s ss ih =>
    obtain ⟨hpairs, hblocks⟩ := ih fun s hs => h s (List.mem_cons_of_mem _ hs)
    have hfirst := h s List.mem_cons_self
    cases s with
    | header list path span =>
      refine ⟨nofun, ?_⟩
      intro b hb
      rcases List.mem_cons.1 hb with rfl | hb
      · exact hpairs
      · exact hblocks b hb
    | pair path key n =>
      refine ⟨?_, hblocks⟩
      intro p hp
      rcases List.mem_cons.1 hp with rfl | hp
      · exact hfirst
      · exact hpairs p hp

theorem distinct_addBlocks {bs : List Block} (hes : es.Distinct) (hbs : ∀ b ∈ bs, ∀ p ∈ b.pairs, p.2.2.Distinct)
    (h : bs.foldlM addBlock es = some es') : es'.Distinct := by
  induction bs generalizing es with
  | nil =>
    cases h
    exact hes
  | cons b bs ih =>
    rw [List.foldlM_cons] at h
    obtain ⟨mid, hmid, hrest⟩ := Option.bind_eq_some_iff.1 h
    exact ih (distinct_addBlock hes (hbs b List.mem_cons_self) hmid) (fun c hc => hbs c (List.mem_cons_of_mem _ hc)) hrest

/-- No table in the tree of a document has a key twice. -/
theorem distinct_of_parse {text : String} (h : parse text = some es) : es.Distinct := by
  obtain ⟨ss, hss, h⟩ := Option.bind_eq_some_iff.1 h
  obtain ⟨hpairs, hblocks⟩ := distinct_blocks (distinct_readStatements hss)
  obtain ⟨root, hroot, h⟩ := Option.bind_eq_some_iff.1 h
  exact distinct_addBlocks (distinct_addPairs .nil hpairs hroot) hblocks h

end BootDisk.Toml
