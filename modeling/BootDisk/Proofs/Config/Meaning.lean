import Mathlib
import BootDisk.Proofs.Config.Shape

/-!
# What a document means

`Config.layout` lists the keys that there are, section by section, with the type each takes, and `Config.meant` is the configuration with
each field as a document gives it, or as it is by default. A document is a configuration exactly if it fits the layout and what it means is
allowed, and what does not fit is told before what is not allowed (`Config.parse_exact`). Documents of the same tree mean the same.
-/

namespace BootDisk

open Toml ExceptAux

/-! ## Layouts and meanings -/

/-- The fields of the target section. -/
def TargetSection.layout : Layout :=
  [("triple", Typed Toml.Node.string?), ("target_dir", Typed Toml.Node.path?)]

/-- The fields of the kernel section. -/
def KernelSection.layout : Layout :=
  [("bin", Typed Toml.Node.string?), ("entry_source", Typed Toml.Node.path?), ("features", Typed Toml.Node.strings?),
    ("no_default_features", Typed Toml.Node.boolean?)]

/-- The fields of the section on user programs. -/
def UserspaceSection.layout : Layout :=
  [("source_dir", Typed Toml.Node.path?), ("install_dir", Typed Toml.Node.path?), ("features", Typed Toml.Node.strings?),
    ("no_default_features", Typed Toml.Node.boolean?), ("rustc_args", Typed Toml.Node.strings?)]

/-- The fields of the image section. -/
def ImageSection.layout : Layout :=
  [("path", Typed Toml.Node.path?), ("capacity_mib", Typed Toml.Node.word64?)]

/-- The fields of the tools section. -/
def ToolsSection.layout : Layout :=
  [("cargo", Typed Toml.Node.string?), ("strip", Typed Toml.Node.string?)]

/-- The fields of the emulator section. -/
def QemuSection.layout : Layout :=
  [("memory_mb", Typed Toml.Node.word32?), ("extra_args", Typed Toml.Node.strings?)]

/-- The sections. -/
def Config.layout : Layout :=
  [("target", TargetSection.layout.Fits), ("kernel", KernelSection.layout.Fits), ("userspace", UserspaceSection.layout.Fits),
    ("image", ImageSection.layout.Fits), ("tools", ToolsSection.layout.Fits), ("qemu", QemuSection.layout.Fits)]

/-- A target section by what is given for its fields. -/
def TargetSection.meant (given : String → Option Toml.Node) : TargetSection where
  triple := valueOr "x86_64-syskrnl" Toml.Node.string? (given "triple")
  targetDir := valueOr ⟨"target"⟩ Toml.Node.path? (given "target_dir")

/-- A kernel section by what is given for its fields. -/
def KernelSection.meant (given : String → Option Toml.Node) : KernelSection where
  bin := valueOr "syskrnl" Toml.Node.string? (given "bin")
  entrySource := valueOr ⟨"src/lib.rs"⟩ Toml.Node.path? (given "entry_source")
  features := valueOr [] Toml.Node.strings? (given "features")
  noDefaultFeatures := valueOr false Toml.Node.boolean? (given "no_default_features")

/-- A section on user programs by what is given for its fields. -/
def UserspaceSection.meant (given : String → Option Toml.Node) : UserspaceSection where
  sourceDir := valueOr ⟨"src/bin"⟩ Toml.Node.path? (given "source_dir")
  installDir := valueOr ⟨"dsk/bin"⟩ Toml.Node.path? (given "install_dir")
  features := valueOr [] Toml.Node.strings? (given "features")
  noDefaultFeatures := valueOr false Toml.Node.boolean? (given "no_default_features")
  rustcArgs := valueOr [] Toml.Node.strings? (given "rustc_args")

/-- An image section by what is given for its fields. -/
def ImageSection.meant (given : String → Option Toml.Node) : ImageSection where
  path := valueOr ⟨"disk.img"⟩ Toml.Node.path? (given "path")
  capacityMib := valueOr 32 Toml.Node.word64? (given "capacity_mib")

/-- A tools section by what is given for its fields. -/
def ToolsSection.meant (given : String → Option Toml.Node) : ToolsSection where
  cargo := valueOr "cargo" Toml.Node.string? (given "cargo")
  strip := valueOr "strip" Toml.Node.string? (given "strip")

/-- An emulator section by what is given for its fields. -/
def QemuSection.meant (given : String → Option Toml.Node) : QemuSection where
  memoryMb := valueOr 128 Toml.Node.word32? (given "memory_mb")
  extraArgs := valueOr [] Toml.Node.strings? (given "extra_args")

namespace Config

/-- What the tree of a document gives for the field of a section. -/
def given (es : Entries) (sect : String) (layout : Layout) (name : String) : Option Toml.Node :=
  (es.find? sect).bind (layout.given name)

/-- What the tree of a document means: each field is what is given for it, or its default where nothing is. -/
def meant (es : Entries) : Config where
  target := .meant (given es "target" TargetSection.layout)
  kernel := .meant (given es "kernel" KernelSection.layout)
  userspace := .meant (given es "userspace" UserspaceSection.layout)
  image := .meant (given es "image" ImageSection.layout)
  tools := .meant (given es "tools" ToolsSection.layout)
  qemu := .meant (given es "qemu" QemuSection.layout)

/-- The target and the kernel have names that are not all white space, and the image has some size that can be counted. -/
structure Allowed (c : Config) : Prop where
  triple : ∃ x ∈ c.target.triple.toList, Text.isBlank x = false
  bin : ∃ x ∈ c.kernel.bin.toList, Text.isBlank x = false
  capacity_pos : 1 ≤ c.image.capacityMib.toNat
  capacity_lt : c.image.capacityMib.toNat < 0x100000000000

end Config

/-! ## Sections -/

namespace Toml

variable {σ α : Type} {fs : List (Field σ)} {name key : String} {fill : Node → Except Fault α} {set : α → σ → σ}

theorem Field.meets_of {fits : Node → Prop} (h : ∀ n, n.Distinct → ((∃ a, fill n = .ok a) ↔ fits n)) :
    (Field.of name fill set).Meets (name, fits) := by
  refine ⟨rfl, fun n hn r => Iff.trans ?_ (h n hn)⟩
  constructor
  · rintro ⟨r', hr'⟩
    obtain ⟨a, ha, -⟩ := Field.fill_of.1 hr'
    exact ⟨a, ha⟩
  · rintro ⟨a, ha⟩
    exact ⟨set a r, Field.fill_of.2 ⟨a, ha, rfl⟩⟩

theorem Field.meets_typed {read : Node → Option α} (h : ∀ {n a}, fill n = .ok a ↔ read n = some a) :
    (Field.of name fill set).Meets (name, Typed read) :=
  Field.meets_of fun _ _ => exists_congr fun _ => h

theorem gives_nil {β : Type} {get : σ → β} {read : Node → Option β} : Gives [] key get read :=
  nofun

/-- What a field does to a component is what its value does to the record. -/
theorem gives_cons {β : Type} {get : σ → β} {read : Node → Option β} :
    Gives (.of name fill set :: fs) key get read ↔
      (∀ n a r, fill n = .ok a → if name = key then read n = some (get (set a r)) else get (set a r) = get r) ∧ Gives fs key get read := by
  unfold Gives
  rw [List.forall_mem_cons]
  refine and_congr_left fun _ => ⟨fun h n a r ha => h n r _ (Field.fill_of.2 ⟨a, ha, rfl⟩), ?_⟩
  intro h n r r' hr'
  obtain ⟨a, ha, rfl⟩ := Field.fill_of.1 hr'
  exact h n a r ha

end Toml

namespace TargetSection

theorem meets : shape.Meets layout :=
  ⟨.cons (Field.meets_typed asString_eq_ok) (.cons (Field.meets_typed asPath_eq_ok) .nil), by decide⟩

/-- A target section that is filled from a value is what the value gives. -/
theorem eq_meant {n : Toml.Node} {s : TargetSection} (hn : n.Distinct) (h : shape.fill {} n = .ok s) :
    s = meant fun name => layout.given name n := by
  have htriple : Gives shape.fields "triple" triple Toml.Node.string? := by
    simp [shape, gives_cons, gives_nil, asString_eq_ok]
  have htargetDir : Gives shape.fields "target_dir" targetDir Toml.Node.path? := by
    simp [shape, gives_cons, gives_nil, asPath_eq_ok]
  rw [show s = ⟨s.triple, s.targetDir⟩ from rfl, (meets.get_fill htriple hn h).eq_valueOr, (meets.get_fill htargetDir hn h).eq_valueOr]
  rfl

end TargetSection

namespace KernelSection

theorem meets : shape.Meets layout :=
  ⟨.cons (Field.meets_typed asString_eq_ok)
    (.cons (Field.meets_typed asPath_eq_ok)
      (.cons (Field.meets_typed asStrings_eq_ok)
        (.cons (Field.meets_typed asBoolean_eq_ok) .nil))), by decide⟩

/-- A kernel section that is filled from a value is what the value gives. -/
theorem eq_meant {n : Toml.Node} {s : KernelSection} (hn : n.Distinct) (h : shape.fill {} n = .ok s) :
    s = meant fun name => layout.given name n := by
  have hbin : Gives shape.fields "bin" bin Toml.Node.string? := by
    simp [shape, gives_cons, gives_nil, asString_eq_ok]
  have hentrySource : Gives shape.fields "entry_source" entrySource Toml.Node.path? := by
    simp [shape, gives_cons, gives_nil, asPath_eq_ok]
  have hfeatures : Gives shape.fields "features" features Toml.Node.strings? := by
    simp [shape, gives_cons, gives_nil, asStrings_eq_ok]
  have hnoDefaultFeatures : Gives shape.fields "no_default_features" noDefaultFeatures Toml.Node.boolean? := by
    simp [shape, gives_cons, gives_nil, asBoolean_eq_ok]
  rw [show s = ⟨s.bin, s.entrySource, s.features, s.noDefaultFeatures⟩ from rfl, (meets.get_fill hbin hn h).eq_valueOr,
    (meets.get_fill hentrySource hn h).eq_valueOr, (meets.get_fill hfeatures hn h).eq_valueOr,
    (meets.get_fill hnoDefaultFeatures hn h).eq_valueOr]
  rfl

end KernelSection

namespace UserspaceSection

theorem meets : shape.Meets layout :=
  ⟨.cons (Field.meets_typed asPath_eq_ok)
    (.cons (Field.meets_typed asPath_eq_ok)
      (.cons (Field.meets_typed asStrings_eq_ok)
        (.cons (Field.meets_typed asBoolean_eq_ok)
          (.cons (Field.meets_typed asStrings_eq_ok) .nil)))), by decide⟩

/-- A section on user programs that is filled from a value is what the value gives. -/
theorem eq_meant {n : Toml.Node} {s : UserspaceSection} (hn : n.Distinct) (h : shape.fill {} n = .ok s) :
    s = meant fun name => layout.given name n := by
  have hsourceDir : Gives shape.fields "source_dir" sourceDir Toml.Node.path? := by
    simp [shape, gives_cons, gives_nil, asPath_eq_ok]
  have hinstallDir : Gives shape.fields "install_dir" installDir Toml.Node.path? := by
    simp [shape, gives_cons, gives_nil, asPath_eq_ok]
  have hfeatures : Gives shape.fields "features" features Toml.Node.strings? := by
    simp [shape, gives_cons, gives_nil, asStrings_eq_ok]
  have hnoDefaultFeatures : Gives shape.fields "no_default_features" noDefaultFeatures Toml.Node.boolean? := by
    simp [shape, gives_cons, gives_nil, asBoolean_eq_ok]
  have hrustcArgs : Gives shape.fields "rustc_args" rustcArgs Toml.Node.strings? := by
    simp [shape, gives_cons, gives_nil, asStrings_eq_ok]
  rw [show s = ⟨s.sourceDir, s.installDir, s.features, s.noDefaultFeatures, s.rustcArgs⟩ from rfl,
    (meets.get_fill hsourceDir hn h).eq_valueOr, (meets.get_fill hinstallDir hn h).eq_valueOr,
    (meets.get_fill hfeatures hn h).eq_valueOr, (meets.get_fill hnoDefaultFeatures hn h).eq_valueOr,
    (meets.get_fill hrustcArgs hn h).eq_valueOr]
  rfl

end UserspaceSection

namespace ImageSection

theorem meets : shape.Meets layout :=
  ⟨.cons (Field.meets_typed asPath_eq_ok) (.cons (Field.meets_typed asWord64_eq_ok) .nil), by decide⟩

/-- An image section that is filled from a value is what the value gives. -/
theorem eq_meant {n : Toml.Node} {s : ImageSection} (hn : n.Distinct) (h : shape.fill {} n = .ok s) :
    s = meant fun name => layout.given name n := by
  have hpath : Gives shape.fields "path" path Toml.Node.path? := by
    simp [shape, gives_cons, gives_nil, asPath_eq_ok]
  have hcapacityMib : Gives shape.fields "capacity_mib" capacityMib Toml.Node.word64? := by
    simp [shape, gives_cons, gives_nil, asWord64_eq_ok]
  rw [show s = ⟨s.path, s.capacityMib⟩ from rfl, (meets.get_fill hpath hn h).eq_valueOr, (meets.get_fill hcapacityMib hn h).eq_valueOr]
  rfl

end ImageSection

namespace ToolsSection

theorem meets : shape.Meets layout :=
  ⟨.cons (Field.meets_typed asString_eq_ok) (.cons (Field.meets_typed asString_eq_ok) .nil), by decide⟩

/-- A tools section that is filled from a value is what the value gives. -/
theorem eq_meant {n : Toml.Node} {s : ToolsSection} (hn : n.Distinct) (h : shape.fill {} n = .ok s) :
    s = meant fun name => layout.given name n := by
  have hcargo : Gives shape.fields "cargo" cargo Toml.Node.string? := by
    simp [shape, gives_cons, gives_nil, asString_eq_ok]
  have hstrip : Gives shape.fields "strip" strip Toml.Node.string? := by
    simp [shape, gives_cons, gives_nil, asString_eq_ok]
  rw [show s = ⟨s.cargo, s.strip⟩ from rfl, (meets.get_fill hcargo hn h).eq_valueOr, (meets.get_fill hstrip hn h).eq_valueOr]
  rfl

end ToolsSection

namespace QemuSection

theorem meets : shape.Meets layout :=
  ⟨.cons (Field.meets_typed asWord32_eq_ok) (.cons (Field.meets_typed asStrings_eq_ok) .nil), by decide⟩

/-- An emulator section that is filled from a value is what the value gives. -/
theorem eq_meant {n : Toml.Node} {s : QemuSection} (hn : n.Distinct) (h : shape.fill {} n = .ok s) :
    s = meant fun name => layout.given name n := by
  have hmemoryMb : Gives shape.fields "memory_mb" memoryMb Toml.Node.word32? := by
    simp [shape, gives_cons, gives_nil, asWord32_eq_ok]
  have hextraArgs : Gives shape.fields "extra_args" extraArgs Toml.Node.strings? := by
    simp [shape, gives_cons, gives_nil, asStrings_eq_ok]
  rw [show s = ⟨s.memoryMb, s.extraArgs⟩ from rfl, (meets.get_fill hmemoryMb hn h).eq_valueOr,
    (meets.get_fill hextraArgs hn h).eq_valueOr]
  rfl

end QemuSection

namespace Config

variable {es : Entries} {c : Config} {text : String}

/-! ## Whole configurations -/

theorem meets : shape.Meets layout :=
  ⟨.cons (Field.meets_of fun _ hn => TargetSection.meets.exists_fill hn {})
    (.cons (Field.meets_of fun _ hn => KernelSection.meets.exists_fill hn {})
      (.cons (Field.meets_of fun _ hn => UserspaceSection.meets.exists_fill hn {})
        (.cons (Field.meets_of fun _ hn => ImageSection.meets.exists_fill hn {})
          (.cons (Field.meets_of fun _ hn => ToolsSection.meets.exists_fill hn {})
            (.cons (Field.meets_of fun _ hn => QemuSection.meets.exists_fill hn {}) .nil))))), by decide⟩

/-- A section of a configuration that is filled from a table: what the section's own value gives, or all defaults where it has none. -/
theorem section_eq {σ : Type} {get : Config → σ} {fill : Toml.Node → Except Fault σ} {sect : String} {layout : Layout}
    {meant : (String → Option Toml.Node) → σ} (hes : es.Distinct) (h : ofEntries es = .ok c)
    (hgives : Gives shape.fields sect get fun n => (fill n).toOption) (hdefault : get {} = meant fun _ => none)
    (hmeant : ∀ {n s}, n.Distinct → fill n = .ok s → s = meant fun name => layout.given name n) :
    get c = meant (given es sect layout) := by
  have hget : Told (fun n => (fill n).toOption) (get {}) (es.find? sect) (get c) := meets.get_fill hgives hes.toTable h
  unfold given
  cases hsect : es.find? sect with
  | none =>
    rw [hsect] at hget
    exact Eq.trans hget hdefault
  | some n =>
    rw [hsect] at hget
    exact hmeant (hes.of_find? hsect) (toOption_eq_some.1 hget)

/-- What is read from a document's tree is what the tree means. -/
theorem eq_meant (hes : es.Distinct) (h : ofEntries es = .ok c) : c = meant es := by
  have htarget : Gives shape.fields "target" target fun n => (TargetSection.shape.fill {} n).toOption := by
    simp [shape, gives_cons, gives_nil, toOption_eq_some]
  have hkernel : Gives shape.fields "kernel" kernel fun n => (KernelSection.shape.fill {} n).toOption := by
    simp [shape, gives_cons, gives_nil, toOption_eq_some]
  have huserspace : Gives shape.fields "userspace" userspace fun n => (UserspaceSection.shape.fill {} n).toOption := by
    simp [shape, gives_cons, gives_nil, toOption_eq_some]
  have himage : Gives shape.fields "image" image fun n => (ImageSection.shape.fill {} n).toOption := by
    simp [shape, gives_cons, gives_nil, toOption_eq_some]
  have htools : Gives shape.fields "tools" tools fun n => (ToolsSection.shape.fill {} n).toOption := by
    simp [shape, gives_cons, gives_nil, toOption_eq_some]
  have hqemu : Gives shape.fields "qemu" qemu fun n => (QemuSection.shape.fill {} n).toOption := by
    simp [shape, gives_cons, gives_nil, toOption_eq_some]
  rw [show c = ⟨c.target, c.kernel, c.userspace, c.image, c.tools, c.qemu⟩ from rfl, section_eq hes h htarget rfl TargetSection.eq_meant,
    section_eq hes h hkernel rfl KernelSection.eq_meant, section_eq hes h huserspace rfl UserspaceSection.eq_meant,
    section_eq hes h himage rfl ImageSection.eq_meant, section_eq hes h htools rfl ToolsSection.eq_meant,
    section_eq hes h hqemu rfl QemuSection.eq_meant]
  rfl

/-- A tree can be read exactly if it fits the layout. -/
theorem exists_ofEntries (hes : es.Distinct) : (∃ c, ofEntries es = .ok c) ↔ layout.Fits (.table .header es none) :=
  meets.exists_fill hes.toTable {}

theorem allBlank_eq_false {s : String} : ¬ Text.allBlank s = true ↔ ∃ x ∈ s.toList, Text.isBlank x = false := by
  rw [Text.allBlank, Bool.not_eq_true, List.all_eq_false]
  simp only [Bool.not_eq_true]

/-- A capacity can be counted in bytes if it is below 2^44 MiB. -/
theorem capacityBytes_cases (image : ImageSection) :
    (image.capacityMib.toNat < 0x100000000000 ∧ ∃ n, image.capacityBytes = .ok n) ∨
      (¬ image.capacityMib.toNat < 0x100000000000 ∧ image.capacityBytes = .error (.capacityTooLarge image.capacityMib)) := by
  unfold ImageSection.capacityBytes ImageSection.capacityBytes? bytesPerMib
  by_cases h : image.capacityMib.toNat < 0x100000000000
  · refine Or.inl ⟨h, 1024 * 1024 * image.capacityMib.toNat, ?_⟩
    dsimp only
    rw [if_pos (by omega)]
  · refine Or.inr ⟨h, ?_⟩
    dsimp only
    rw [if_neg (by omega)]

/-- The check lets through just what is allowed, and fails for one of four reasons. -/
theorem validate_cases (c : Config) :
    (c.Allowed ∧ c.validate = .ok ()) ∨
      (¬ c.Allowed ∧ ∃ e ∈ [.blankTriple, .blankKernelBin, .zeroCapacity, .capacityTooLarge c.image.capacityMib], c.validate = .error e) := by
  unfold validate
  by_cases htriple : Text.allBlank c.target.triple = true
  · rw [if_pos htriple]
    exact Or.inr ⟨fun h => allBlank_eq_false.2 h.triple htriple, _, by simp, rfl⟩
  rw [if_neg htriple]
  by_cases hbin : Text.allBlank c.kernel.bin = true
  · rw [if_pos hbin]
    exact Or.inr ⟨fun h => allBlank_eq_false.2 h.bin hbin, _, by simp, rfl⟩
  rw [if_neg hbin]
  by_cases hzero : c.image.capacityMib = 0
  · rw [if_pos hzero]
    refine Or.inr ⟨fun h => ?_, _, by simp, rfl⟩
    have hpos := h.capacity_pos
    rw [hzero] at hpos
    exact absurd hpos (by decide)
  rw [if_neg hzero]
  rcases capacityBytes_cases c.image with ⟨hlt, n, hn⟩ | ⟨hge, hbig⟩
  · rw [hn]
    refine Or.inl ⟨⟨allBlank_eq_false.1 htriple, allBlank_eq_false.1 hbin, ?_, hlt⟩, rfl⟩
    have hne : c.image.capacityMib.toNat ≠ 0 := fun h => hzero (UInt64.toNat_inj.1 h)
    omega
  · rw [hbig]
    exact Or.inr ⟨fun h => hge h.capacity_lt, _, by simp, rfl⟩

theorem parse_of_tree (h : Toml.parse text = some es) :
    parse text = (ofEntries es).mapError (.disagrees text) >>= fun c => c.validate >>= fun _ => .ok c := by
  rw [parse, h]
  rfl

/-- What fits means what it means, if that is allowed. -/
theorem parse_of_fits (h : Toml.parse text = some es) (hfits : layout.Fits (.table .header es none)) :
    parse text = (meant es).validate >>= fun _ => .ok (meant es) := by
  have hes := distinct_of_parse h
  obtain ⟨c, hc⟩ := (exists_ofEntries hes).2 hfits
  rw [parse_of_tree h, hc, eq_meant hes hc]
  rfl

/-- What does not fit disagrees. -/
theorem parse_of_not_fits (h : Toml.parse text = some es) (hfits : ¬ layout.Fits (.table .header es none)) :
    ∃ f, parse text = .error (.disagrees text f) := by
  cases hc : ofEntries es with
  | ok c => exact absurd ((exists_ofEntries (distinct_of_parse h)).1 ⟨c, hc⟩) hfits
  | error f =>
    refine ⟨f, ?_⟩
    rw [parse_of_tree h, hc]
    rfl

/-- A document is a configuration exactly if it fits the layout and what it means is allowed; it is then what it means. -/
theorem parse_eq_ok_iff (h : Toml.parse text = some es) :
    parse text = .ok c ↔ layout.Fits (.table .header es none) ∧ (meant es).Allowed ∧ c = meant es := by
  by_cases hfits : layout.Fits (.table .header es none)
  · rw [parse_of_fits h hfits]
    rcases validate_cases (meant es) with ⟨hallowed, hvalid⟩ | ⟨hnot, e, -, he⟩
    · rw [hvalid]
      exact ⟨fun hc => ⟨hfits, hallowed, (Except.ok.inj hc).symm⟩, fun hc => congrArg Except.ok hc.2.2.symm⟩
    · rw [he]
      exact ⟨nofun, fun hc => absurd hc.2.1 hnot⟩
  · obtain ⟨f, hf⟩ := parse_of_not_fits h hfits
    rw [hf]
    exact ⟨nofun, fun hc => absurd hc.1 hfits⟩

end Config

/-! ## The same tree -/

namespace Toml

/-- Values of the same tree, wherever and however they are written: tables with the same values for the same keys, in whatever order, and
arrays with the same elements. -/
inductive Node.Same : Node → Node → Prop where
  | string {s a b} : Same (.string s a) (.string s b)
  | integer {i a b} : Same (.integer i a) (.integer i b)
  | floating {x a b} : Same (.floating x a) (.floating x b)
  | boolean {v a b} : Same (.boolean v a) (.boolean v b)
  | moment {a b} : Same (.moment a) (.moment b)
  | elements {n m xs ys} : n.elements? = some xs → m.elements? = some ys → xs.length = ys.length →
      (∀ (i : Nat) x y, xs[i]? = some x → ys[i]? = some y → Same x y) → Same n m
  | table {form form' es es' a b} : (∀ key, Entries.find? key es = none ↔ Entries.find? key es' = none) →
      (∀ key x y, Entries.find? key es = some x → Entries.find? key es' = some y → Same x y) →
      Same (.table form es a) (.table form' es' b)

variable {n m : Node} {α : Type} {layout : Layout} {name : String} {xs ys : List Node}

theorem Node.leaves_of_elements (h : n.elements? = some xs) : n.string? = none ∧ n.boolean? = none ∧ ∀ bound, n.number? bound = none := by
  cases n with
  | array items span => exact ⟨rfl, rfl, fun _ => rfl⟩
  | tables items span => exact ⟨rfl, rfl, fun _ => rfl⟩
  | _ => cases h

theorem Node.Same.option_rel {x? y? : Option Node} (hnone : x? = none ↔ y? = none) (hsome : ∀ x y, x? = some x → y? = some y → Same x y) :
    Option.Rel Same x? y? := by
  cases x? with
  | none =>
    rw [hnone.1 rfl]
    exact .none
  | some x =>
    cases y? with
    | none => cases hnone.2 rfl
    | some y => exact .some (hsome x y rfl rfl)

theorem Node.Same.forall₂ (hlength : xs.length = ys.length) (hsame : ∀ (i : Nat) x y, xs[i]? = some x → ys[i]? = some y → Same x y) :
    List.Forall₂ Same xs ys :=
  List.forall₂_iff_get.2 ⟨hlength, fun i hi hi' => hsame i _ _ (List.getElem?_eq_getElem hi) (List.getElem?_eq_getElem hi')⟩

namespace Node.Same

theorem singleton {form form' : Form} {span span' : Option Span} {k k' : Key} (hk : k.name = k'.name) (h : Same n m) :
    Same (.table form [(k, n)] span) (.table form' [(k', m)] span') := by
  refine .table (fun key => ?_) fun key x y hx hy => ?_
  · rw [Entries.find?_eq_none_iff, Entries.find?_eq_none_iff, Entries.names, Entries.names, List.map_singleton, List.map_singleton, hk]
  · rw [Entries.find?] at hx hy
    rw [hk] at hx
    split at hx
    · next hkey =>
      rw [if_pos hkey] at hy
      cases hx
      cases hy
      exact h
    · cases hx

theorem symm (h : Same n m) : Same m n := by
  induction h with
  | string => exact .string
  | integer => exact .integer
  | floating => exact .floating
  | boolean => exact .boolean
  | moment => exact .moment
  | elements hn hm hlength _ ih => exact .elements hm hn hlength.symm fun i x y hx hy => ih i y x hy hx
  | table hkeys _ ih => exact .table (fun key => (hkeys key).symm) fun key x y hx hy => ih key y x hy hx

theorem string?_eq (h : Same n m) : n.string? = m.string? := by
  cases h with
  | elements hn hm => rw [(Node.leaves_of_elements hn).1, (Node.leaves_of_elements hm).1]
  | _ => rfl

theorem boolean?_eq (h : Same n m) : n.boolean? = m.boolean? := by
  cases h with
  | elements hn hm => rw [(Node.leaves_of_elements hn).2.1, (Node.leaves_of_elements hm).2.1]
  | _ => rfl

theorem number?_eq (h : Same n m) (bound : Nat) : n.number? bound = m.number? bound := by
  cases h with
  | elements hn hm => rw [(Node.leaves_of_elements hn).2.2, (Node.leaves_of_elements hm).2.2]
  | _ => rfl

theorem path?_eq (h : Same n m) : n.path? = m.path? := by
  rw [Node.path?, Node.path?, h.string?_eq]

theorem word64?_eq (h : Same n m) : n.word64? = m.word64? := by
  rw [Node.word64?, Node.word64?, h.number?_eq]

theorem word32?_eq (h : Same n m) : n.word32? = m.word32? := by
  rw [Node.word32?, Node.word32?, h.number?_eq]

/-- The elements of the one and the other, place by place. -/
theorem elements?_rel (h : Same n m) : Option.Rel (List.Forall₂ Same) n.elements? m.elements? := by
  cases h with
  | elements hn hm hlength hsame =>
    rw [hn, hm]
    exact .some (forall₂ hlength hsame)
  | _ => exact .none

theorem strings?_eq (h : Same n m) : n.strings? = m.strings? := by
  unfold Node.strings?
  have hrel := h.elements?_rel
  generalize n.elements? = left at hrel
  generalize m.elements? = right at hrel
  cases hrel with
  | none => rfl
  | some hitems =>
    rw [Option.bind_some, Option.bind_some]
    induction hitems with
    | nil => rfl
    | cons hxy _ ih => rw [List.mapM_cons, List.mapM_cons, hxy.string?_eq, ih]

end Node.Same

theorem lookup_zip_rel {names : List String} (h : List.Forall₂ Node.Same xs ys) :
    Option.Rel Node.Same ((names.zip xs).lookup name) ((names.zip ys).lookup name) := by
  induction h generalizing names with
  | nil =>
    rw [List.zip_nil_right]
    exact .none
  | cons hxy _ ih =>
    cases names with
    | nil => exact .none
    | cons key names =>
      rw [List.zip_cons_cons, List.zip_cons_cons, List.lookup_cons, List.lookup_cons]
      cases name == key with
      | true => exact .some hxy
      | false => exact ih

theorem Layout.given_elements (h : n.elements? = some xs) : layout.given name n = ((layout.map Prod.fst).zip xs).lookup name := by
  cases n with
  | array items span =>
    cases h
    rfl
  | tables items span =>
    cases h
    rfl
  | _ => cases h

theorem Layout.fits_elements (h : n.elements? = some xs) : layout.Fits n ↔ ∀ p ∈ layout.zip xs, p.1.2 p.2 := by
  have hiff : (∃ items, n.elements? = some items ∧ ∀ p ∈ layout.zip items, p.1.2 p.2) ↔ ∀ p ∈ layout.zip xs, p.1.2 p.2 := by
    rw [h]
    exact ⟨fun ⟨_, heq, hall⟩ => Option.some.inj heq ▸ hall, fun hall => ⟨xs, rfl, hall⟩⟩
  cases n with
  | array items span => exact hiff
  | tables items span => exact hiff
  | _ => cases h

/-- What the layout has for the fields is told by the trees of the values. -/
def Layout.Respects (layout : Layout) : Prop :=
  ∀ p ∈ layout, ∀ n m, Node.Same n m → p.2 n → p.2 m

namespace Layout.Respects

theorem nil : Layout.Respects [] :=
  nofun

theorem cons {fits : Node → Prop} (hfits : ∀ n m, Node.Same n m → fits n → fits m) (h : layout.Respects) :
    Layout.Respects ((name, fits) :: layout) :=
  List.forall_mem_cons.2 ⟨hfits, h⟩

end Layout.Respects

theorem forall_zip_of_same (hlayout : layout.Respects) (h : List.Forall₂ Node.Same xs ys)
    (hxs : ∀ p ∈ layout.zip xs, p.1.2 p.2) : ∀ p ∈ layout.zip ys, p.1.2 p.2 := by
  induction h generalizing layout with
  | nil =>
    rw [List.zip_nil_right]
    exact nofun
  | cons hxy _ ih =>
    cases layout with
    | nil => exact nofun
    | cons q layout =>
      obtain ⟨hq, hrest⟩ := List.forall_mem_cons.1 hlayout
      rw [List.zip_cons_cons, List.forall_mem_cons] at hxs ⊢
      exact ⟨hq _ _ hxy hxs.1, ih hrest hxs.2⟩

/-- Values of the same tree give the same for each field. -/
theorem Layout.given_rel (h : n.Same m) : Option.Rel Node.Same (layout.given name n) (layout.given name m) := by
  cases h with
  | elements hn hm hlength hsame =>
    rw [given_elements hn, given_elements hm]
    exact lookup_zip_rel (Node.Same.forall₂ hlength hsame)
  | table hkeys hsame => exact Node.Same.option_rel (hkeys name) (hsame name)
  | _ => exact .none

/-- Whether a value fits a layout is told by its tree, if that is so of the values that the layout has for the fields. -/
theorem Layout.Respects.fits (hlayout : layout.Respects) (n m : Node) (h : n.Same m) (hn : layout.Fits n) : layout.Fits m := by
  cases h with
  | elements hxs hys hlength hsame =>
    rw [Layout.fits_elements hxs] at hn
    rw [Layout.fits_elements hys]
    exact forall_zip_of_same hlayout (Node.Same.forall₂ hlength hsame) hn
  | table hkeys hsame =>
    intro key y hy
    rename_i es es' _ _
    cases hx : es.find? key with
    | none => cases hy.symm.trans ((hkeys key).1 hx)
    | some x =>
      obtain ⟨fits, hmem, hfits⟩ := hn key x hx
      exact ⟨fits, hmem, hlayout _ hmem x y (hsame key x y hx hy) hfits⟩
  | _ =>
    obtain ⟨_, hnone, -⟩ := hn
    cases hnone

theorem Typed.of_same {read : Node → Option α} (hread : ∀ {n m}, Node.Same n m → read n = read m) (n m : Node) (h : n.Same m)
    (hn : Typed read n) : Typed read m := by
  obtain ⟨a, ha⟩ := hn
  exact ⟨a, hread h ▸ ha⟩

theorem valueOr_eq {read : Node → Option α} (hread : ∀ {n m}, Node.Same n m → read n = read m) (default : α) {given given' : Option Node}
    (h : Option.Rel Node.Same given given') : valueOr default read given = valueOr default read given' := by
  cases h with
  | none => rfl
  | some h => rw [valueOr, valueOr, hread h]

end Toml

namespace Config

variable {es es' : Entries} {text text' : String}

theorem given_rel (h : Toml.Node.Same (.table .header es none) (.table .header es' none)) (sect : String) (layout : Layout) (name : String) :
    Option.Rel Toml.Node.Same (given es sect layout name) (given es' sect layout name) := by
  have hsect : Option.Rel Toml.Node.Same (Layout.given [] sect (.table .header es none)) (Layout.given [] sect (.table .header es' none)) :=
    Layout.given_rel h
  dsimp only [Layout.given] at hsect
  unfold given
  generalize es.find? sect = left at hsect
  generalize es'.find? sect = right at hsect
  cases hsect with
  | none => exact .none
  | some hsame => exact Layout.given_rel hsame

/-- Documents of the same tree mean the same. -/
theorem meant_eq (h : Toml.Node.Same (.table .header es none) (.table .header es' none)) : meant es = meant es' := by
  have hstring (default : String) (sect : String) (layout : Layout) (name : String) :=
    valueOr_eq Toml.Node.Same.string?_eq default (given_rel h sect layout name)
  have hpath (default : Path) (sect : String) (layout : Layout) (name : String) :=
    valueOr_eq Toml.Node.Same.path?_eq default (given_rel h sect layout name)
  have hstrings (default : List String) (sect : String) (layout : Layout) (name : String) :=
    valueOr_eq Toml.Node.Same.strings?_eq default (given_rel h sect layout name)
  have hboolean (default : Bool) (sect : String) (layout : Layout) (name : String) :=
    valueOr_eq Toml.Node.Same.boolean?_eq default (given_rel h sect layout name)
  have hword64 (default : UInt64) (sect : String) (layout : Layout) (name : String) :=
    valueOr_eq Toml.Node.Same.word64?_eq default (given_rel h sect layout name)
  have hword32 (default : UInt32) (sect : String) (layout : Layout) (name : String) :=
    valueOr_eq Toml.Node.Same.word32?_eq default (given_rel h sect layout name)
  simp only [meant, TargetSection.meant, KernelSection.meant, UserspaceSection.meant, ImageSection.meant, ToolsSection.meant,
    QemuSection.meant, hstring, hpath, hstrings, hboolean, hword64, hword32]

theorem layout_respects : layout.Respects :=
  .cons (Layout.Respects.fits (.cons (Typed.of_same Toml.Node.Same.string?_eq) (.cons (Typed.of_same Toml.Node.Same.path?_eq) .nil))) <|
  .cons (Layout.Respects.fits (.cons (Typed.of_same Toml.Node.Same.string?_eq) (.cons (Typed.of_same Toml.Node.Same.path?_eq)
    (.cons (Typed.of_same Toml.Node.Same.strings?_eq) (.cons (Typed.of_same Toml.Node.Same.boolean?_eq) .nil))))) <|
  .cons (Layout.Respects.fits (.cons (Typed.of_same Toml.Node.Same.path?_eq) (.cons (Typed.of_same Toml.Node.Same.path?_eq)
    (.cons (Typed.of_same Toml.Node.Same.strings?_eq) (.cons (Typed.of_same Toml.Node.Same.boolean?_eq)
      (.cons (Typed.of_same Toml.Node.Same.strings?_eq) .nil)))))) <|
  .cons (Layout.Respects.fits (.cons (Typed.of_same Toml.Node.Same.path?_eq) (.cons (Typed.of_same Toml.Node.Same.word64?_eq) .nil))) <|
  .cons (Layout.Respects.fits (.cons (Typed.of_same Toml.Node.Same.string?_eq) (.cons (Typed.of_same Toml.Node.Same.string?_eq) .nil))) <|
  .cons (Layout.Respects.fits (.cons (Typed.of_same Toml.Node.Same.word32?_eq) (.cons (Typed.of_same Toml.Node.Same.strings?_eq) .nil))) .nil

theorem parse_of_same (h : Toml.parse text = some es) (h' : Toml.parse text' = some es')
    (hsame : Toml.Node.Same (.table .header es none) (.table .header es' none)) (c : Config) : parse text' = .ok c ↔ parse text = .ok c := by
  have hfits : layout.Fits (.table .header es' none) ↔ layout.Fits (.table .header es none) :=
    ⟨layout_respects.fits _ _ hsame.symm, layout_respects.fits _ _ hsame⟩
  rw [parse_eq_ok_iff h, parse_eq_ok_iff h', hfits, meant_eq hsame]

/-- What a document means. The document is a configuration exactly if every key in it is one of a section or of a field and every value has
the type of its field, and if what it means is allowed: each field is as given, or as it is by default where nothing is given. A document
that does not fit is told to disagree with the configuration, whatever it means; only one that fits is told what in it is not allowed.
Documents of the same tree are the same configuration. -/
theorem parse_exact (text : String) (es : Entries) (h : Toml.parse text = some es) :
    (∀ c, parse text = .ok c ↔ layout.Fits (.table .header es none) ∧ (meant es).Allowed ∧ c = meant es) ∧
    (¬ layout.Fits (.table .header es none) → ∃ f, parse text = .error (.disagrees text f)) ∧
    (layout.Fits (.table .header es none) → ¬ (meant es).Allowed →
      ∃ e ∈ [.blankTriple, .blankKernelBin, .zeroCapacity, .capacityTooLarge (meant es).image.capacityMib], parse text = .error e) ∧
    ∀ text' es', Toml.parse text' = some es' → Toml.Node.Same (.table .header es none) (.table .header es' none) →
      ∀ c, parse text' = .ok c ↔ parse text = .ok c := by
  refine ⟨fun c => parse_eq_ok_iff h, parse_of_not_fits h, fun hfits hnot => ?_, fun text' es' h' hsame => parse_of_same h h' hsame⟩
  rw [parse_of_fits h hfits]
  rcases validate_cases (meant es) with ⟨hallowed, -⟩ | ⟨-, e, he, hvalid⟩
  · exact absurd hallowed hnot
  · rw [hvalid]
    exact ⟨e, he, rfl⟩

/-- The tree of an image section under a dotted key. -/
def sampleDotted : Entries :=
  [(⟨"image", ⟨23, 18⟩⟩, .table .dotted [(⟨"capacity_mib", ⟨17, 5⟩⟩, .integer 64 ⟨2, 0⟩)] none)]

/-- The tree of an image section under a header. -/
def sampleHeader : Entries :=
  [(⟨"image", ⟨28, 21⟩⟩, .table .header [(⟨"capacity_mib", ⟨19, 7⟩⟩, .integer 64 ⟨4, 0⟩)] (some ⟨29, 0⟩))]

/-- A capacity under a dotted key, and the same capacity under a header with a quoted name, written in another base. -/
theorem parse_exact_samples :
    Toml.parse "image.capacity_mib = 64" = some sampleDotted ∧ Toml.parse "[\"image\"]\ncapacity_mib = 0x40" = some sampleHeader ∧
      Toml.Node.Same (.table .header sampleDotted none) (.table .header sampleHeader none) ∧
      parse "image.capacity_mib = 64" = .ok { image := { capacityMib := 64 } } ∧
      parse "[\"image\"]\ncapacity_mib = 0x40" = .ok { image := { capacityMib := 64 } } := by
  have hdotted : Toml.parse "image.capacity_mib = 64" = some sampleDotted := by cbv
  have hheader : Toml.parse "[\"image\"]\ncapacity_mib = 0x40" = some sampleHeader := by cbv
  have hfits : layout.Fits (.table .header sampleDotted none) := by
    intro sect n hn
    obtain ⟨_, rfl, hmem⟩ := Entries.mem_of_find? hn
    cases List.mem_singleton.1 hmem
    refine ⟨ImageSection.layout.Fits, by simp [layout], ?_⟩
    intro key m hm
    obtain ⟨_, rfl, hmem⟩ := Entries.mem_of_find? hm
    cases List.mem_singleton.1 hmem
    exact ⟨Typed Toml.Node.word64?, by simp [ImageSection.layout], 64, by decide +kernel⟩
  have hsame : Toml.Node.Same (.table .header sampleDotted none) (.table .header sampleHeader none) :=
    .singleton rfl (.singleton rfl .integer)
  obtain ⟨hmeant, -, -, hany⟩ := parse_exact _ _ hdotted
  have hallowed : (meant sampleDotted).Allowed :=
    ⟨⟨'x', by decide +kernel⟩, ⟨'s', by decide +kernel⟩, by decide +kernel, by decide +kernel⟩
  have hok := (hmeant { image := { capacityMib := 64 } }).2 ⟨hfits, hallowed, by decide +kernel⟩
  exact ⟨hdotted, hheader, hsame, hok, (hany _ _ hheader hsame _).2 hok⟩

end Config

end BootDisk
