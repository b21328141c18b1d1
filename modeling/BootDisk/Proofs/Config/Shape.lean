import Mathlib.Data.List.Forall2
import BootDisk.Config.Decode
import BootDisk.Proofs.Basic
import BootDisk.Proofs.Toml.Distinct

/-!
# Filling a record

What a record is filled with from a value, told without the order in which the value is gone through. A layout lists the names of a record's
fields with what each of them takes (`Toml.Layout`). A record can be filled from a value exactly if the value fits the layout
(`Toml.Shape.Meets.exists_fill`), and each component of it is then read from what the value gives for its field, or stays as it is where
nothing is given (`Toml.Shape.Meets.get_fill`). A record of records is no other case: a section's layout is what its field takes.
-/

namespace BootDisk

namespace Toml

open ExceptAux

variable {σ α : Type} {n m : Node} {r r' : σ}

/-! ## Values of a type -/

/-- The path in a string. -/
def Node.path? (n : Node) : Option Path :=
  n.string?.map Path.mk

/-- A whole number from zero up to a bound. -/
def Node.number? (bound : Nat) : Node → Option Nat
  | .integer i _ => if 0 ≤ i ∧ i < (bound : Int) then some i.toNat else none
  | _ => none

/-- A number that 64 bits hold. -/
def Node.word64? (n : Node) : Option UInt64 :=
  (n.number? 0x10000000000000000).map UInt64.ofNat

/-- A number that 32 bits hold. -/
def Node.word32? (n : Node) : Option UInt32 :=
  (n.number? 0x100000000).map UInt32.ofNat

/-- The strings in a list of strings. -/
def Node.strings? (n : Node) : Option (List String) :=
  n.elements?.bind fun items => items.mapM Node.string?

/-- The value is of the type that is read. -/
def Typed (read : Node → Option α) (n : Node) : Prop :=
  ∃ a, read n = some a

/-- What is given, or a default where nothing is. -/
def valueOr (default : α) (read : Node → Option α) : Option Node → α
  | none => default
  | some n => (read n).getD default

/-! ## Tables and arrays of fields -/

/-- The fields of a record in order: their names, and what their values have to be. -/
abbrev Layout := List (String × (Node → Prop))

/-- A value fits a record's layout: it is a table with no other keys than the fields, or an array, whose elements are taken for the fields in
order and what is beyond them for nothing; and the values are what the fields take. -/
def Layout.Fits (layout : Layout) : Node → Prop
  | .table _ es _ => ∀ key n, Entries.find? key es = some n → ∃ fits, (key, fits) ∈ layout ∧ fits n
  | n => ∃ items, n.elements? = some items ∧ ∀ p ∈ layout.zip items, p.1.2 p.2

/-- What a value gives for a field: the value of its key in a table, or the element in its place in an array. -/
def Layout.given (layout : Layout) (name : String) : Node → Option Node
  | .table _ es _ => Entries.find? name es
  | n => n.elements?.bind fun items => ((layout.map Prod.fst).zip items).lookup name

/-! ## Reading one value -/

theorem placed_eq_ok {span : Option Span} {x : Except Fault α} {a : α} : placed span x = .ok a ↔ x = .ok a := by
  unfold placed
  split
  · simp
  · rfl

theorem Node.expect_eq_ok {expected : Expected} {read : Node → Option α} {a : α} : n.expect expected read = .ok a ↔ read n = some a := by
  unfold Node.expect
  cases read n <;> simp

theorem asString_eq_ok {s : String} : asString n = .ok s ↔ n.string? = some s :=
  Node.expect_eq_ok

theorem asPath_eq_ok {p : Path} : asPath n = .ok p ↔ n.path? = some p := by
  rw [asPath, map_eq_ok, Node.path?, Option.map_eq_some_iff]
  simp only [Node.expect_eq_ok]

theorem asBoolean_eq_ok {b : Bool} : asBoolean n = .ok b ↔ n.boolean? = some b :=
  Node.expect_eq_ok

theorem asNumber_eq_ok {expected : Expected} {bound i : Nat} : asNumber expected bound n = .ok i ↔ n.number? bound = some i := by
  cases n with
  | integer j span =>
    unfold asNumber Node.number?
    dsimp only
    by_cases hj : 0 ≤ j ∧ j < (bound : Int)
    · rw [if_pos hj, if_pos hj, Except.ok.injEq, Option.some.injEq]
    · rw [if_neg hj, if_neg hj]
      exact ⟨nofun, nofun⟩
  | _ => exact ⟨nofun, nofun⟩

theorem asWord64_eq_ok {w : UInt64} : asWord64 n = .ok w ↔ n.word64? = some w := by
  rw [asWord64, map_eq_ok, Node.word64?, Option.map_eq_some_iff]
  simp only [asNumber_eq_ok]

theorem asWord32_eq_ok {w : UInt32} : asWord32 n = .ok w ↔ n.word32? = some w := by
  rw [asWord32, map_eq_ok, Node.word32?, Option.map_eq_some_iff]
  simp only [asNumber_eq_ok]

theorem mapM_asString_eq_ok {items : List Node} {ss : List String} : items.mapM asString = .ok ss ↔ items.mapM Node.string? = some ss := by
  induction items generalizing ss with
  | nil => simp [pure, Except.pure]
  | cons n ns ih =>
    rw [List.mapM_cons, List.mapM_cons]
    cases hn : n.string? with
    | none =>
      have hfail : ¬ ∃ s, asString n = .ok s := by
        rintro ⟨s, hs⟩
        cases hn.symm.trans (asString_eq_ok.1 hs)
      cases h : asString n with
      | error e => simp [bind, Except.bind]
      | ok s => exact absurd ⟨s, h⟩ hfail
    | some s =>
      rw [asString_eq_ok.2 hn]
      cases hns : ns.mapM Node.string? with
      | none =>
        cases h : ns.mapM asString with
        | error e => simp [bind, Except.bind]
        | ok ss => cases hns.symm.trans (ih.1 h)
      | some ss =>
        rw [ih.2 hns]
        simp [bind, Except.bind, pure, Except.pure]

theorem asStrings_eq_ok {ss : List String} : asStrings n = .ok ss ↔ n.strings? = some ss := by
  unfold asStrings Node.strings?
  cases hitems : n.elements? with
  | none => simp [Node.expect, hitems, bind, Except.bind]
  | some items =>
    rw [Node.expect_eq_ok.2 hitems]
    exact placed_eq_ok.trans mapM_asString_eq_ok

/-! ## Filling a record -/

theorem Field.fill_of {name : String} {read : Node → Except Fault α} {set : α → σ → σ} :
    (Field.of name read set).fill n r = .ok r' ↔ ∃ a, read n = .ok a ∧ set a r = r' :=
  map_eq_ok

/-- The field has the name and takes just the values that a layout has. -/
def Field.Meets (f : Field σ) (p : String × (Node → Prop)) : Prop :=
  f.name = p.1 ∧ ∀ n, n.Distinct → ∀ r, (∃ r', f.fill n r = .ok r') ↔ p.2 n

section Fields

variable {fs : List (Field σ)} {layout : Layout} {name : String} {get : σ → α} {read : Node → Option α}

/-- A key can be filled in exactly if the layout has it and its value is what the layout has for it. The induction is on the fields. -/
theorem exists_fill_iff (hfs : List.Forall₂ Field.Meets fs layout) (hnodup : (layout.map Prod.fst).Nodup) (hn : n.Distinct) (r : σ) :
    (∃ f, (fs.find? fun f => f.name == name) = some f ∧ ∃ r', f.fill n r = .ok r') ↔ ∃ fits, (name, fits) ∈ layout ∧ fits n := by
  induction hfs with
  | nil => simp
  | @cons f p fs ps hfp _ ih =>
    obtain ⟨hname, hfill⟩ := hfp
    obtain ⟨hfresh, hrest⟩ := List.nodup_cons.1 hnodup
    by_cases hf : f.name = name
    · rw [List.find?_cons_of_pos (by simpa using hf)]
      simp only [Option.some.injEq, exists_eq_left', hfill n hn]
      constructor
      · intro hp
        refine ⟨p.2, ?_, hp⟩
        rw [← hf, hname]
        exact List.mem_cons_self
      · rintro ⟨fits, hmem, hfits⟩
        rcases List.mem_cons.1 hmem with heq | hmem
        · rw [← heq]
          exact hfits
        · refine absurd (List.mem_map_of_mem (f := Prod.fst) hmem) ?_
          rw [← hf, hname]
          exact hfresh
    · rw [List.find?_cons_of_neg (by simpa using hf), ih hrest]
      refine exists_congr fun fits => and_congr_left fun _ => ?_
      rw [List.mem_cons, or_iff_right]
      rintro rfl
      exact hf hname

/-- Whether a value can be put into a field does not depend on the record. -/
theorem exists_fill_any (hfs : List.Forall₂ Field.Meets fs layout) (f : Field σ) (hf : f ∈ fs) (hn : n.Distinct) (r₁ r₂ : σ) :
    (∃ r', f.fill n r₁ = .ok r') ↔ ∃ r', f.fill n r₂ = .ok r' := by
  induction hfs with
  | nil => cases hf
  | cons hfp _ ih =>
    rcases List.mem_cons.1 hf with rfl | hf
    · exact (hfp.2 n hn r₁).trans (hfp.2 n hn r₂).symm
    · exact ih hf

/-- The elements of an array can be filled in exactly if each is what the layout has in its place. -/
theorem forall_zip_iff (hfs : List.Forall₂ Field.Meets fs layout) {items : List Node} (hitems : ∀ n ∈ items, n.Distinct) (r : σ) :
    (∀ p ∈ fs.zip items, ∃ r', p.1.fill p.2 r = .ok r') ↔ ∀ p ∈ layout.zip items, p.1.2 p.2 := by
  induction hfs generalizing items with
  | nil => simp
  | @cons f p fs ps hfp _ ih =>
    cases items with
    | nil => simp
    | cons n ns =>
      obtain ⟨hn, hns⟩ := List.forall_mem_cons.1 hitems
      rw [List.zip_cons_cons, List.zip_cons_cons, List.forall_mem_cons, List.forall_mem_cons, ih hns]
      exact and_congr_left fun _ => hfp.2 n hn r

/-- A component is what is read from the value that is given for it, or what it was where none is. -/
def Told (read : Node → Option α) (old : α) : Option Node → α → Prop
  | none, a => a = old
  | some n, a => read n = some a

theorem Told.eq_valueOr {old a : α} {given : Option Node} (h : Told read old given a) : a = valueOr old read given := by
  cases given with
  | none => exact h
  | some n =>
    rw [valueOr, show read n = some a from h]
    rfl

/-- The component of the record is what is read from the values put into the field of this name, and no other field touches it. -/
def Gives (fs : List (Field σ)) (name : String) (get : σ → α) (read : Node → Option α) : Prop :=
  ∀ f ∈ fs, ∀ n r r', f.fill n r = .ok r' → if f.name = name then read n = some (get r') else get r' = get r

/-- What the elements of an array leave in a component: the element in the field's place, if there is one. -/
theorem get_of_elements (hgives : Gives fs name get read) (hnodup : (fs.map Field.name).Nodup) {items : List Node}
    (h : (fs.zip items).foldlM (fun r (f, n) => placed n.span? (f.fill n r)) r = .ok r') :
    Told read (get r) (((fs.map Field.name).zip items).lookup name) (get r') := by
  induction fs generalizing items r with
  | nil =>
    cases h
    rfl
  | cons f fs ih =>
    cases items with
    | nil =>
      cases h
      rfl
    | cons n ns =>
      obtain ⟨hfresh, hnodup⟩ := List.nodup_cons.1 hnodup
      obtain ⟨hf, hgives'⟩ := List.forall_mem_cons.1 hgives
      rw [List.zip_cons_cons, List.foldlM_cons] at h
      obtain ⟨mid, hmid, hrest⟩ := bind_eq_ok.1 h
      have hfill := placed_eq_ok.1 hmid
      have hmid := hf n r mid hfill
      have hget := ih hgives' hnodup hrest
      rw [List.map_cons, List.zip_cons_cons, List.lookup_cons]
      by_cases hname : f.name = name
      · have hbeq : (name == f.name) = true := by simpa using hname.symm
        have hnone : ((fs.map Field.name).zip ns).lookup name = none := by
          rw [List.lookup_eq_none_iff]
          rintro ⟨key, m⟩ hkey
          have hkey := (List.of_mem_zip hkey).1
          rw [bne_iff_ne]
          rintro rfl
          exact hfresh (hname ▸ hkey)
        rw [if_pos hname] at hmid
        rw [hnone] at hget
        rw [hbeq, Told, show get r' = get mid from hget]
        exact hmid
      · have hbeq : (name == f.name) = false := by simpa using Ne.symm hname
        rw [if_neg hname] at hmid
        rw [hbeq, ← hmid]
        exact hget

theorem Shape.fillKey_eq_ok {s : Shape σ} {e : Key × Node} :
    s.fillKey r e = .ok r' ↔ ∃ f, (s.fields.find? fun f => f.name == e.1.name) = some f ∧ f.fill e.2 r = .ok r' := by
  unfold fillKey
  split
  · next hnone => simp [hnone]
  · next f hf =>
    rw [placed_eq_ok, hf]
    simp

/-- What the keys of a table leave in a component: the value of the field's key, if it is there. -/
theorem get_of_keys {s : Shape σ} (hgives : Gives s.fields name get read) {es : Entries} (hes : es.names.Nodup)
    (h : es.foldlM s.fillKey r = .ok r') : Told read (get r) (es.find? name) (get r') := by
  induction es generalizing r with
  | nil =>
    cases h
    rfl
  | cons e es ih =>
    obtain ⟨hfresh, hes⟩ := List.nodup_cons.1 hes
    rw [List.foldlM_cons] at h
    obtain ⟨mid, hmid, hrest⟩ := bind_eq_ok.1 h
    obtain ⟨f, hf, hfill⟩ := Shape.fillKey_eq_ok.1 hmid
    have hname : f.name = e.1.name := by simpa using List.find?_some hf
    have hmid := hgives f (List.mem_of_find?_eq_some hf) e.2 r mid hfill
    have hget := ih hes hrest
    rw [Entries.find?]
    by_cases he : e.1.name = name
    · rw [if_pos (hname.trans he)] at hmid
      have hnone : Entries.find? name es = none := Entries.find?_eq_none_iff.2 (he ▸ hfresh)
      rw [hnone] at hget
      rw [if_pos he, Told, show get r' = get mid from hget]
      exact hmid
    · rw [if_neg (fun hf => he (hname.symm.trans hf))] at hmid
      rw [if_neg he, ← hmid]
      exact hget

end Fields

/-- A record's fields are those of the layout. -/
structure Shape.Meets (s : Shape σ) (layout : Layout) : Prop where
  fields : List.Forall₂ Field.Meets s.fields layout
  nodup : (layout.map Prod.fst).Nodup

namespace Shape

variable {s : Shape σ} {layout : Layout} {name : String} {get : σ → α} {read : Node → Option α}

theorem Meets.names (h : s.Meets layout) : s.fields.map Field.name = layout.map Prod.fst := by
  obtain ⟨hfields, -⟩ := h
  generalize s.fields = fs at hfields
  induction hfields with
  | nil => rfl
  | cons hfp _ ih => rw [List.map_cons, List.map_cons, hfp.1, ih]

theorem fill_table {form : Form} {es : Entries} {span : Option Span} :
    s.fill r (.table form es span) = .ok r' ↔ es.foldlM s.fillKey r = .ok r' :=
  placed_eq_ok

theorem fill_elements {items : List Node} (h : n.elements? = some items) :
    s.fill r n = .ok r' ↔ (s.fields.zip items).foldlM (fun r (f, n) => placed n.span? (f.fill n r)) r = .ok r' := by
  cases n with
  | array items' span =>
    cases h
    exact placed_eq_ok
  | tables items' span =>
    cases h
    exact placed_eq_ok
  | _ => cases h

theorem fill_other (htable : ∀ form es span, n ≠ .table form es span) (h : n.elements? = none) : s.fill r n ≠ .ok r' := by
  cases n with
  | array items span => cases h
  | tables items span => cases h
  | table form es span => exact absurd rfl (htable form es span)
  | _ => exact mt placed_eq_ok.1 nofun

/-- A record can be filled from an array exactly if the elements are what the layout has in their places. -/
theorem Meets.exists_fill_elements (h : s.Meets layout) {items : List Node} (hitems : n.elements? = some items)
    (hdistinct : ∀ n ∈ items, n.Distinct) (r : σ) :
    (∃ r', s.fill r n = .ok r') ↔ ∃ items, n.elements? = some items ∧ ∀ p ∈ layout.zip items, p.1.2 p.2 := by
  have hstep : ∀ p ∈ s.fields.zip items, ∀ r',
      (∃ r'', placed p.2.span? (p.1.fill p.2 r') = .ok r'') ↔ ∃ r'', p.1.fill p.2 r = .ok r'' := by
    intro p hp r'
    simp only [placed_eq_ok]
    exact exists_fill_any h.fields p.1 (List.of_mem_zip hp).1 (hdistinct p.2 (List.of_mem_zip hp).2) r' r
  simp only [fill_elements hitems, hitems, Option.some.injEq, exists_eq_left']
  rw [exists_foldlM_eq_ok hstep]
  exact forall_zip_iff h.fields hdistinct r

/-- A record can be filled from a value exactly if the value fits its layout. -/
theorem Meets.exists_fill (h : s.Meets layout) (hn : n.Distinct) (r : σ) : (∃ r', s.fill r n = .ok r') ↔ layout.Fits n := by
  have hother (htable : ∀ form es span, n ≠ .table form es span) (hn : n.elements? = none) :
      (∃ r', s.fill r n = .ok r') ↔ ∃ items, n.elements? = some items ∧ ∀ p ∈ layout.zip items, p.1.2 p.2 := by
    rw [hn]
    refine ⟨fun ⟨r', h⟩ => absurd h (fill_other htable hn), nofun⟩
  cases n with
  | table form es span =>
    have hkey : ∀ e ∈ es, ∀ r, (∃ r', s.fillKey r e = .ok r') ↔ ∃ fits, (e.1.name, fits) ∈ layout ∧ fits e.2 := by
      intro e he r
      rw [← exists_fill_iff h.fields h.nodup (hn.entries.values e he) r]
      simp only [fillKey_eq_ok]
      rw [exists_comm]
      exact exists_congr fun f => exists_and_left
    simp only [fill_table]
    rw [exists_foldlM_eq_ok hkey]
    constructor
    · intro hall key m hm
      obtain ⟨k, rfl, hmem⟩ := Entries.mem_of_find? hm
      exact hall _ hmem
    · rintro hfits ⟨k, m⟩ hmem
      exact hfits k.name m (Entries.find?_of_mem hn.entries.names hmem)
  | array items span => exact h.exists_fill_elements rfl (hn.items (Or.inl rfl)) r
  | tables items span => exact h.exists_fill_elements rfl (hn.items (Or.inr rfl)) r
  | _ => exact hother nofun rfl

/-- What a value leaves in a component of the record that was filled from it. -/
theorem Meets.get_fill (h : s.Meets layout) (hgives : Gives s.fields name get read) (hn : n.Distinct) (hfill : s.fill r n = .ok r') :
    Told read (get r) (layout.given name n) (get r') := by
  have hnodup : (s.fields.map Field.name).Nodup := h.names ▸ h.nodup
  have helements {items : List Node} (hitems : n.elements? = some items) :
      Told read (get r) (((layout.map Prod.fst).zip items).lookup name) (get r') :=
    h.names ▸ get_of_elements hgives hnodup ((fill_elements hitems).1 hfill)
  cases n with
  | table form es span => exact get_of_keys hgives hn.entries.names (fill_table.1 hfill)
  | array items span => exact helements rfl
  | tables items span => exact helements rfl
  | _ => exact absurd hfill (fill_other nofun rfl)

end Shape

end Toml

end BootDisk
