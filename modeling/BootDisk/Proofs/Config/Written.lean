import BootDisk.Proofs.Config.Meaning
import BootDisk.Proofs.Toml.ReadBack

/-!
# Configurations as they are written

A configuration is written section by section, all of it or just what differs from the defaults. Either way, and in whatever order the
sections come, what is written reads back as the configuration, if it is an allowed one (`Config.parse_written`). What its strings are
does not matter.
-/

namespace BootDisk

open Toml

/-! ## Writing -/

/-- The fields of a target section. -/
def TargetSection.written (s : TargetSection) : List (String × Item) :=
  [("triple", .text s.triple), ("target_dir", .text s.targetDir.text)]

/-- The fields of a kernel section. -/
def KernelSection.written (s : KernelSection) : List (String × Item) :=
  [("bin", .text s.bin), ("entry_source", .text s.entrySource.text), ("features", .texts s.features),
    ("no_default_features", .flag s.noDefaultFeatures)]

/-- The fields of a section on user programs. -/
def UserspaceSection.written (s : UserspaceSection) : List (String × Item) :=
  [("source_dir", .text s.sourceDir.text), ("install_dir", .text s.installDir.text), ("features", .texts s.features),
    ("no_default_features", .flag s.noDefaultFeatures), ("rustc_args", .texts s.rustcArgs)]

/-- The fields of an image section. -/
def ImageSection.written (s : ImageSection) : List (String × Item) :=
  [("path", .text s.path.text), ("capacity_mib", .number s.capacityMib.toNat)]

/-- The fields of a tools section. -/
def ToolsSection.written (s : ToolsSection) : List (String × Item) :=
  [("cargo", .text s.cargo), ("strip", .text s.strip)]

/-- The fields of an emulator section. -/
def QemuSection.written (s : QemuSection) : List (String × Item) :=
  [("memory_mb", .number s.memoryMb.toNat), ("extra_args", .texts s.extraArgs)]

/-- What a document has for the field of a section. -/
def Toml.Sections.itemAt (doc : Sections) (sect key : String) : Option Item :=
  (List.lookup sect doc).bind fun fields => fields.lookup key

namespace Config

/-- All the fields of a configuration under their sections. -/
def written (c : Config) : Sections :=
  [("target", c.target.written), ("kernel", c.kernel.written), ("userspace", c.userspace.written), ("image", c.image.written),
    ("tools", c.tools.written), ("qemu", c.qemu.written)]

/-- The fields of a configuration that differ from the defaults, under the sections that have any. -/
def changes (c : Config) : Sections :=
  (c.written.map fun s => (s.1, s.2.filter fun f => Sections.itemAt (written {}) s.1 f.1 ≠ some f.2)).filter fun s => s.2 ≠ []

end Config

/-! ## What documents say of a configuration -/

namespace Toml

variable {doc : Sections} {es sub : Entries} {fields : List (String × Item)} {sect key : String} {n : Node}

theorem FieldsRead.lookup_rel (h : FieldsRead fields sub) (key : String) : Option.Rel Item.Is (fields.lookup key) (sub.find? key) := by
  induction h with
  | nil => exact .none
  | @cons f e fields sub hfe _ ih =>
    obtain ⟨hname, hvalue⟩ := hfe
    rw [List.lookup_cons, Entries.find?, hname]
    by_cases hkey : f.1 = key
    · have hbeq : (key == f.1) = true := by simpa using hkey.symm
      rw [hbeq, if_pos hkey]
      exact .some hvalue
    · have hbeq : (key == f.1) = false := by simpa using Ne.symm hkey
      rw [hbeq, if_neg hkey]
      exact ih

theorem SectionsRead.lookup_rel (h : SectionsRead doc es) (sect : String) :
    Option.Rel (fun fields n => ∃ sub span, n = .table .header sub span ∧ FieldsRead fields sub) (List.lookup sect doc) (es.find? sect) := by
  induction h with
  | nil => exact .none
  | @cons s e doc es hse _ ih =>
    obtain ⟨hname, hvalue⟩ := hse
    rw [List.lookup_cons, Entries.find?, hname]
    by_cases hsect : s.1 = sect
    · have hbeq : (sect == s.1) = true := by simpa using hsect.symm
      rw [hbeq, if_pos hsect]
      exact .some hvalue
    · have hbeq : (sect == s.1) = false := by simpa using Ne.symm hsect
      rw [hbeq, if_neg hsect]
      exact ih

/-- What is given for a field is what the document has for it. -/
theorem SectionsRead.given_rel (h : SectionsRead doc es) (sect : String) (layout : Layout) (key : String) :
    Option.Rel Item.Is (doc.itemAt sect key) (Config.given es sect layout key) := by
  have hsect := h.lookup_rel sect
  unfold Sections.itemAt Config.given
  generalize List.lookup sect doc = left at hsect
  generalize es.find? sect = right at hsect
  cases hsect with
  | none => exact .none
  | some hsect =>
    obtain ⟨sub, span, rfl, hsub⟩ := hsect
    exact hsub.lookup_rel key

theorem itemAt_eq_some_iff (hdoc : (doc.map Prod.fst).Nodup) (hfields : ∀ s ∈ doc, (s.2.map Prod.fst).Nodup) {item : Item} :
    doc.itemAt sect key = some item ↔ ∃ fields, (sect, fields) ∈ doc ∧ (key, item) ∈ fields := by
  rw [Sections.itemAt, Option.bind_eq_some_iff]
  refine exists_congr fun fields => ?_
  rw [ListAux.lookup_eq_some_iff_mem hdoc]
  refine and_congr_right fun hmem => ?_
  rw [ListAux.lookup_eq_some_iff_mem (hfields _ hmem)]

end Toml

namespace Config

variable {doc : Sections} {es : Entries} {c : Config}

/-- A document says of a configuration what it needs to: it has no other fields, and all those that differ from the defaults. -/
structure Covers (doc : Sections) (c : Config) : Prop where
  distinct : (doc.map Prod.fst).Nodup
  fields_distinct : ∀ s ∈ doc, (s.2.map Prod.fst).Nodup
  within : ∀ s ∈ doc, ∃ fields, (s.1, fields) ∈ c.written ∧ ∀ f ∈ s.2, f ∈ fields
  enough : ∀ s ∈ c.written, ∀ f ∈ s.2, (∃ fields, (s.1, fields) ∈ doc ∧ f ∈ fields) ∨ (written {}).itemAt s.1 f.1 = some f.2

theorem written_distinct (c : Config) : (c.written.map Prod.fst).Nodup := by
  have hnames : c.written.map Prod.fst = ["target", "kernel", "userspace", "image", "tools", "qemu"] := rfl
  rw [hnames]
  decide

theorem written_fields_distinct (c : Config) : ∀ s ∈ c.written, (s.2.map Prod.fst).Nodup := by
  have hnames : c.written.map (fun s => s.2.map Prod.fst) = (written {}).map fun s => s.2.map Prod.fst := rfl
  have hall : ∀ names ∈ (written {}).map fun s => s.2.map Prod.fst, names.Nodup := by decide
  intro s hs
  exact hall _ (hnames ▸ List.mem_map_of_mem hs)

/-- The names in what is written are words. -/
theorem written_words (c : Config) : ∀ s ∈ c.written, IsWord s.1 ∧ ∀ f ∈ s.2, IsWord f.1 := by
  have hnames : c.written.map (fun s => (s.1, s.2.map Prod.fst)) = (written {}).map fun s => (s.1, s.2.map Prod.fst) := rfl
  have hall : ∀ s ∈ (written {}).map fun s => (s.1, s.2.map Prod.fst), IsWord s.1 ∧ ∀ name ∈ s.2, IsWord name := by decide +kernel
  intro s hs
  have hmem : (s.1, s.2.map Prod.fst) ∈ (written {}).map fun s => (s.1, s.2.map Prod.fst) := hnames ▸ List.mem_map_of_mem hs
  obtain ⟨hs, hfields⟩ := hall _ hmem
  exact ⟨hs, fun f hf => hfields _ (List.mem_map_of_mem hf)⟩

/-- The numbers in an allowed configuration can be written. -/
theorem written_writable (h : c.Allowed) : ∀ s ∈ c.written, ∀ f ∈ s.2, f.2.Writable := by
  have hcapacity : c.image.capacityMib.toNat < 0x8000000000000000 := Nat.lt_trans h.capacity_lt (by decide)
  have hmemory : c.qemu.memoryMb.toNat < 0x8000000000000000 := Nat.lt_trans c.qemu.memoryMb.toNat_lt (by decide)
  simp only [written, TargetSection.written, KernelSection.written, UserspaceSection.written, ImageSection.written, ToolsSection.written,
    QemuSection.written, List.forall_mem_cons, Item.Writable, hcapacity, hmemory]
  simp

/-- The values are what a layout has for their fields. -/
def FieldsFit (fields : List (String × Item)) (layout : Layout) : Prop :=
  List.Forall₂ (fun f p => f.1 = p.1 ∧ ∀ n, f.2.Is n → p.2 n) fields layout

theorem FieldsFit.exists_fits {fields : List (String × Item)} {layout : Layout} (h : FieldsFit fields layout) {f : String × Item}
    (hf : f ∈ fields) : ∃ fits, (f.1, fits) ∈ layout ∧ ∀ n, f.2.Is n → fits n := by
  induction h with
  | nil => cases hf
  | @cons g p _ layout hgp _ ih =>
    rcases List.mem_cons.1 hf with rfl | hf
    · exact ⟨p.2, by rw [hgp.1]; exact List.mem_cons_self, hgp.2⟩
    · obtain ⟨fits, hmem, hfits⟩ := ih hf
      exact ⟨fits, List.mem_cons_of_mem _ hmem, hfits⟩

end Config

namespace Toml

/-- How a value of a type is written and read. -/
structure Codec (item : α → Item) (read : Node → Option α) : Prop where
  read_of_is : ∀ {a n}, (item a).Is n → read n = some a
  injective : ∀ {a b}, item a = item b → a = b

theorem Codec.typed {item : α → Item} {read : Node → Option α} (h : Codec item read) {a : α} (n : Node) (hn : (item a).Is n) :
    Typed read n :=
  ⟨a, h.read_of_is hn⟩

theorem codec_string : Codec Item.text Node.string? where
  read_of_is := by
    rintro s n ⟨span, rfl⟩
    rfl
  injective := Item.text.inj

theorem codec_path : Codec (fun p : Path => Item.text p.text) Node.path? where
  read_of_is := by
    rintro p n ⟨span, rfl⟩
    rfl
  injective := by
    rintro ⟨a⟩ ⟨b⟩ h
    cases h
    rfl

theorem codec_boolean : Codec Item.flag Node.boolean? where
  read_of_is := by
    rintro b n ⟨span, rfl⟩
    rfl
  injective := Item.flag.inj

theorem number?_of_is {i bound : Nat} {n : Node} (hi : i < bound) (h : (Item.number i).Is n) : n.number? bound = some i := by
  obtain ⟨span, rfl⟩ := h
  rw [Node.number?, if_pos (by omega)]
  rfl

theorem codec_word64 : Codec (fun w : UInt64 => Item.number w.toNat) Node.word64? where
  read_of_is := by
    intro w n h
    rw [Node.word64?, number?_of_is w.toNat_lt h, Option.map_some, UInt64.ofNat_toNat]
  injective h := UInt64.toNat_inj.1 (Item.number.inj h)

theorem codec_word32 : Codec (fun w : UInt32 => Item.number w.toNat) Node.word32? where
  read_of_is := by
    intro w n h
    rw [Node.word32?, number?_of_is w.toNat_lt h, Option.map_some, UInt32.ofNat_toNat]
  injective h := UInt32.toNat_inj.1 (Item.number.inj h)

theorem codec_strings : Codec Item.texts Node.strings? where
  read_of_is := by
    rintro ss n ⟨items, span, rfl, hitems⟩
    rw [Node.strings?]
    change items.mapM Node.string? = some ss
    induction hitems with
    | nil => rfl
    | cons hs _ ih =>
      obtain ⟨span, rfl⟩ := hs
      rw [List.mapM_cons, ih]
      rfl
  injective := Item.texts.inj

end Toml

namespace Config

variable {doc : Sections} {es : Entries} {c : Config}

/-- What is written for a section fits the section's layout. -/
theorem written_fits (c : Config) :
    List.Forall₂ (fun s p => s.1 = p.1 ∧ ∃ layout : Layout, p.2 = layout.Fits ∧ FieldsFit s.2 layout) c.written layout :=
  .cons ⟨rfl, _, rfl, .cons ⟨rfl, codec_string.typed⟩ (.cons ⟨rfl, codec_path.typed⟩ .nil)⟩ <|
  .cons ⟨rfl, _, rfl, .cons ⟨rfl, codec_string.typed⟩ (.cons ⟨rfl, codec_path.typed⟩ (.cons ⟨rfl, codec_strings.typed⟩
    (.cons ⟨rfl, codec_boolean.typed⟩ .nil)))⟩ <|
  .cons ⟨rfl, _, rfl, .cons ⟨rfl, codec_path.typed⟩ (.cons ⟨rfl, codec_path.typed⟩ (.cons ⟨rfl, codec_strings.typed⟩
    (.cons ⟨rfl, codec_boolean.typed⟩ (.cons ⟨rfl, codec_strings.typed⟩ .nil))))⟩ <|
  .cons ⟨rfl, _, rfl, .cons ⟨rfl, codec_path.typed⟩ (.cons ⟨rfl, codec_word64.typed⟩ .nil)⟩ <|
  .cons ⟨rfl, _, rfl, .cons ⟨rfl, codec_string.typed⟩ (.cons ⟨rfl, codec_string.typed⟩ .nil)⟩ <|
  .cons ⟨rfl, _, rfl, .cons ⟨rfl, codec_word32.typed⟩ (.cons ⟨rfl, codec_strings.typed⟩ .nil)⟩ .nil

theorem exists_fits {s : String × List (String × Item)} (hs : s ∈ c.written) :
    ∃ sl : Layout, (s.1, sl.Fits) ∈ layout ∧ FieldsFit s.2 sl := by
  have hall := written_fits c
  generalize c.written = doc at hs hall
  generalize layout = sections at hall
  induction hall with
  | nil => cases hs
  | @cons t p _ sections htp _ ih =>
    obtain ⟨hname, sl, hfits, hfields⟩ := htp
    rcases List.mem_cons.1 hs with rfl | hs
    · exact ⟨sl, by rw [hname, ← hfits]; exact List.mem_cons_self, hfields⟩
    · obtain ⟨sl, hmem, hfields⟩ := ih hs
      exact ⟨sl, List.mem_cons_of_mem _ hmem, hfields⟩

namespace Covers

variable (h : Covers doc c)
include h

/-- A document that says what it needs to of an allowed configuration can be written. -/
theorem writable (hc : c.Allowed) : doc.Writable where
  distinct := h.distinct
  words := by
    intro s hs
    obtain ⟨fields, hfields, -⟩ := h.within s hs
    exact (written_words c _ hfields).1
  fields_distinct := h.fields_distinct
  fields_words := by
    intro s hs f hf
    obtain ⟨fields, hfields, hall⟩ := h.within s hs
    exact ⟨(written_words c _ hfields).2 f (hall f hf), written_writable hc _ hfields f (hall f hf)⟩

/-- What it reads back as fits the layout. -/
theorem fits (hread : SectionsRead doc es) : layout.Fits (.table .header es none) := by
  intro sect n hn
  obtain ⟨fs, hfs, sub, span, rfl, hsub⟩ := OptionAux.exists_of_rel_some (hn ▸ hread.lookup_rel sect)
  have hsect : (sect, fs) ∈ doc := (ListAux.lookup_eq_some_iff_mem h.distinct).1 hfs
  obtain ⟨fields, hfields, hall⟩ := h.within _ hsect
  obtain ⟨sl, hsl, hfit⟩ := exists_fits hfields
  refine ⟨sl.Fits, hsl, ?_⟩
  intro key m hm
  obtain ⟨item, hitem, hvalue⟩ := OptionAux.exists_of_rel_some (hm ▸ hsub.lookup_rel key)
  have hkey : (key, item) ∈ fs := (ListAux.lookup_eq_some_iff_mem (h.fields_distinct _ hsect)).1 hitem
  obtain ⟨fits, hfits, his⟩ := hfit.exists_fits (hall _ hkey)
  exact ⟨fits, hfits, his m hvalue⟩

/-- What it has for a field is what the configuration has, and what it has nothing for is the default. -/
theorem itemAt_cases {sect key : String} {item : Item} (hitem : c.written.itemAt sect key = some item) :
    doc.itemAt sect key = some item ∨ (doc.itemAt sect key = none ∧ (written {}).itemAt sect key = some item) := by
  obtain ⟨fields, hfields, hmem⟩ := (itemAt_eq_some_iff c.written_distinct c.written_fields_distinct).1 hitem
  cases hdoc : doc.itemAt sect key with
  | some item' =>
    obtain ⟨fs, hfs, hmem'⟩ := (itemAt_eq_some_iff h.distinct h.fields_distinct).1 hdoc
    obtain ⟨fields', hfields', hall⟩ := h.within _ hfs
    have hsame := (itemAt_eq_some_iff c.written_distinct c.written_fields_distinct).2 ⟨fields', hfields', hall _ hmem'⟩
    exact Or.inl (hsame.symm.trans hitem)
  | none =>
    rcases h.enough _ hfields _ hmem with ⟨fs, hfs, hmem'⟩ | hdefault
    · cases hdoc.symm.trans ((itemAt_eq_some_iff h.distinct h.fields_distinct).2 ⟨fs, hfs, hmem'⟩)
    · exact Or.inr ⟨rfl, hdefault⟩

/-- What is read for a field is what the configuration has for it. -/
theorem valueOr_eq {α : Type} {item : α → Item} {read : Toml.Node → Option α} (hcodec : Codec item read) (hread : SectionsRead doc es)
    {sect key : String} (layout : Layout) {default value : α} (hvalue : c.written.itemAt sect key = some (item value))
    (hdefault : (written {}).itemAt sect key = some (item default)) : valueOr default read (given es sect layout key) = value := by
  have hgiven := hread.given_rel sect layout key
  rcases h.itemAt_cases hvalue with hdoc | ⟨hdoc, hsame⟩
  · rw [hdoc] at hgiven
    obtain ⟨n, hn, his⟩ := OptionAux.exists_of_some_rel hgiven
    rw [hn, valueOr, hcodec.read_of_is his]
    rfl
  · rw [hdoc] at hgiven
    rw [OptionAux.eq_none_of_none_rel hgiven]
    exact hcodec.injective (Option.some.inj (hdefault.symm.trans hsame))

/-- It means the configuration. -/
theorem meant_eq (hread : SectionsRead doc es) : meant es = c := by
  have htarget : TargetSection.meant (given es "target" TargetSection.layout) = c.target :=
    congr (congrArg TargetSection.mk (h.valueOr_eq codec_string hread _ rfl rfl)) (h.valueOr_eq codec_path hread _ rfl rfl)
  have hkernel : KernelSection.meant (given es "kernel" KernelSection.layout) = c.kernel :=
    congr (congr (congr (congrArg KernelSection.mk (h.valueOr_eq codec_string hread _ rfl rfl)) (h.valueOr_eq codec_path hread _ rfl rfl))
      (h.valueOr_eq codec_strings hread _ rfl rfl)) (h.valueOr_eq codec_boolean hread _ rfl rfl)
  have huserspace : UserspaceSection.meant (given es "userspace" UserspaceSection.layout) = c.userspace :=
    congr (congr (congr (congr (congrArg UserspaceSection.mk (h.valueOr_eq codec_path hread _ rfl rfl))
      (h.valueOr_eq codec_path hread _ rfl rfl)) (h.valueOr_eq codec_strings hread _ rfl rfl))
      (h.valueOr_eq codec_boolean hread _ rfl rfl)) (h.valueOr_eq codec_strings hread _ rfl rfl)
  have himage : ImageSection.meant (given es "image" ImageSection.layout) = c.image :=
    congr (congrArg ImageSection.mk (h.valueOr_eq codec_path hread _ rfl rfl)) (h.valueOr_eq codec_word64 hread _ rfl rfl)
  have htools : ToolsSection.meant (given es "tools" ToolsSection.layout) = c.tools :=
    congr (congrArg ToolsSection.mk (h.valueOr_eq codec_string hread _ rfl rfl)) (h.valueOr_eq codec_string hread _ rfl rfl)
  have hqemu : QemuSection.meant (given es "qemu" QemuSection.layout) = c.qemu :=
    congr (congrArg QemuSection.mk (h.valueOr_eq codec_word32 hread _ rfl rfl)) (h.valueOr_eq codec_strings hread _ rfl rfl)
  rw [meant, htarget, hkernel, huserspace, himage, htools, hqemu]

/-- Its text reads back as the configuration. -/
theorem parse_text (hc : c.Allowed) : parse doc.text = .ok c := by
  obtain ⟨es, hes, hread⟩ := Toml.parse_text (h.writable hc)
  have hmeant := h.meant_eq hread
  exact (parse_eq_ok_iff hes).2 ⟨h.fits hread, hmeant.symm ▸ hc, hmeant.symm⟩

end Covers

/-! ## All of it, or what differs -/

/-- All the fields, with the sections in any order. -/
theorem covers_written (h : doc.Perm c.written) : Covers doc c where
  distinct := (h.map Prod.fst).nodup_iff.2 c.written_distinct
  fields_distinct s hs := c.written_fields_distinct s (h.mem_iff.1 hs)
  within s hs := ⟨s.2, h.mem_iff.1 hs, fun _ hf => hf⟩
  enough s hs _ hf := Or.inl ⟨s.2, h.mem_iff.2 hs, hf⟩

theorem mem_changes {s : String × List (String × Item)} :
    s ∈ c.changes ↔ s.2 ≠ [] ∧ ∃ fields, (s.1, fields) ∈ c.written ∧
      s.2 = fields.filter fun f => (written {}).itemAt s.1 f.1 ≠ some f.2 := by
  obtain ⟨name, fs⟩ := s
  rw [changes, List.mem_filter, List.mem_map, decide_eq_true_eq]
  constructor
  · rintro ⟨⟨⟨_, fields⟩, hfields, heq⟩, hne⟩
    cases heq
    exact ⟨hne, fields, hfields, rfl⟩
  · rintro ⟨hne, fields, hfields, heq⟩
    exact ⟨⟨(name, fields), hfields, Prod.ext rfl heq.symm⟩, hne⟩

/-- Just the fields that differ, with the sections in any order. -/
theorem covers_changes (h : doc.Perm c.changes) : Covers doc c where
  distinct := by
    have hall := c.written_distinct
    refine (h.map Prod.fst).nodup_iff.2 (List.Nodup.sublist (List.filter_sublist.map Prod.fst) ?_)
    rw [List.map_map]
    exact hall
  fields_distinct := by
    intro s hs
    obtain ⟨-, fields, hfields, heq⟩ := mem_changes.1 (h.mem_iff.1 hs)
    rw [heq]
    exact (c.written_fields_distinct _ hfields).sublist (List.filter_sublist.map _)
  within := by
    intro s hs
    obtain ⟨-, fields, hfields, heq⟩ := mem_changes.1 (h.mem_iff.1 hs)
    rw [heq]
    exact ⟨fields, hfields, fun f hf => (List.mem_filter.1 hf).1⟩
  enough := by
    intro s hs f hf
    by_cases hdefault : (written {}).itemAt s.1 f.1 = some f.2
    · exact Or.inr hdefault
    · have hmem : f ∈ s.2.filter fun f => (written {}).itemAt s.1 f.1 ≠ some f.2 := List.mem_filter.2 ⟨hf, by simpa using hdefault⟩
      refine Or.inl ⟨_, h.mem_iff.2 (mem_changes.2 ⟨List.ne_nil_of_mem hmem, s.2, hs, rfl⟩), hmem⟩

/-- A configuration that is allowed reads back from what is written for it: from all of its fields, and from just those that differ from
the defaults, with the sections in any order and with any strings in the fields. -/
theorem parse_written (c : Config) (h : c.Allowed) (doc : Sections) :
    (doc.Perm c.written → parse doc.text = .ok c) ∧ (doc.Perm c.changes → parse doc.text = .ok c) :=
  ⟨fun hdoc => (covers_written hdoc).parse_text h, fun hdoc => (covers_changes hdoc).parse_text h⟩

example : Sections.text (changes { image := { capacityMib := 64 }, tools := { cargo := "a\"\n" } }) =
    "[image]\ncapacity_mib = 64\n[tools]\ncargo = \"a\\\"\\n\"\n" := by decide +kernel

/-- A configuration with marks of the format, control characters, empty strings and characters of four bytes in its strings. -/
def sampleQuoted : Config where
  target := { triple := "a\"b\\c\n[d]\x01\x7fé😀", targetDir := ⟨""⟩ }
  kernel := { features := ["", "\", \"]", " # "], noDefaultFeatures := true }
  image := { capacityMib := 17592186044415 }
  qemu := { memoryMb := 0 }

/-- It reads back from all of its fields in reverse order, and from those that differ from the defaults. -/
theorem parse_written_sampleQuoted :
    sampleQuoted.Allowed ∧ parse (Sections.text sampleQuoted.written.reverse) = .ok sampleQuoted ∧
      parse (Sections.text sampleQuoted.changes) = .ok sampleQuoted := by
  have hallowed : sampleQuoted.Allowed :=
    ⟨⟨'a', by decide +kernel⟩, ⟨'s', by decide +kernel⟩, by decide +kernel, by decide +kernel⟩
  exact ⟨hallowed, (parse_written sampleQuoted hallowed _).1 (List.reverse_perm _),
    (parse_written sampleQuoted hallowed _).2 (List.Perm.refl _)⟩

end Config

end BootDisk
