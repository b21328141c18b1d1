import BootDisk.Config.Basic
import BootDisk.Text.Blank
import BootDisk.Toml.Document
import BootDisk.Toml.Excerpt

/-!
# What a document says about a project

Each section is described once, as the list of its fields in order, each with the kind of value it takes. A document is matched with
that description in the order in which its keys come up, and the first disagreement ends the matching. A section may also be given as
an array, whose elements are its fields in order; fields that are not given keep their defaults.
-/

namespace BootDisk

namespace Toml

/-- A disagreement and where it is, as far as that is known. -/
structure Fault where
  mismatch : Mismatch
  span : Option Span
  deriving DecidableEq, Repr

/-- Places a disagreement that has no place of its own yet. -/
def placed (span : Option Span) : Except Fault α → Except Fault α
  | .error ⟨m, none⟩ => .error ⟨m, span⟩
  | r => r

/-- The value of a node, if it is of the expected kind. -/
def Node.expect (n : Node) (expected : Expected) (read : Node → Option α) : Except Fault α :=
  match read n with
  | some a => .ok a
  | none => .error ⟨.wrongKind n.kind expected, n.span?⟩

/-- The text of a string. -/
def Node.string? : Node → Option String
  | .string s _ => some s
  | _ => none

/-- The truth value of a boolean. -/
def Node.boolean? : Node → Option Bool
  | .boolean b _ => some b
  | _ => none

/-- The elements of an array or of a list of tables. -/
def Node.elements? : Node → Option (List Node)
  | .array items _ => some items
  | .tables items _ => some items
  | _ => none

/-- A field that takes a string. -/
def asString (n : Node) : Except Fault String :=
  n.expect .string Node.string?

/-- A field that takes a path. -/
def asPath (n : Node) : Except Fault Path :=
  (n.expect .path Node.string?).map Path.mk

/-- A field that takes a boolean. -/
def asBoolean (n : Node) : Except Fault Bool :=
  n.expect .boolean Node.boolean?

/-- A field that takes a whole number below a bound. -/
def asNumber (expected : Expected) (bound : Nat) : Node → Except Fault Nat
  | .integer i span =>
    if 0 ≤ i ∧ i < (bound : Int) then .ok i.toNat else .error ⟨.outOfRange i expected, some span⟩
  | n => .error ⟨.wrongKind n.kind expected, n.span?⟩

/-- A field that takes a 64-bit number. -/
def asWord64 (n : Node) : Except Fault UInt64 :=
  (asNumber .word64 0x10000000000000000 n).map UInt64.ofNat

/-- A field that takes a 32-bit number. -/
def asWord32 (n : Node) : Except Fault UInt32 :=
  (asNumber .word32 0x100000000 n).map UInt32.ofNat

/-- A field that takes a list of strings. -/
def asStrings (n : Node) : Except Fault (List String) := do
  let items ← n.expect .sequence Node.elements?
  placed n.span? (items.mapM asString)

/-- A field of a record: its name, and how a value is put into the record. -/
structure Field (σ : Type) where
  name : String
  fill : Node → σ → Except Fault σ

/-- A field that is read by `read` and put in place by `set`. -/
def Field.of (name : String) (read : Node → Except Fault α) (set : α → σ → σ) : Field σ :=
  ⟨name, fun n r => (read n).map fun a => set a r⟩

/-- A record: what it is called, and its fields in order. -/
structure Shape (σ : Type) where
  record : String
  fields : List (Field σ)

/-- The only key of a date or time, seen as a map. -/
def momentKey : String := "$__toml_private_datetime"

/-- The names of the fields of a record. -/
def Shape.names (s : Shape σ) : List String :=
  s.fields.map Field.name

/-- Puts one key of a table into a record. -/
def Shape.fillKey (s : Shape σ) (r : σ) (entry : Key × Node) : Except Fault σ :=
  match s.fields.find? fun f => f.name == entry.1.name with
  | none => .error ⟨.unknownField entry.1.name s.names, some entry.1.span⟩
  | some f => placed (entry.2.span? <|> some entry.1.span) (f.fill entry.2 r)

/-- Puts a value into a record, over what the record holds so far. -/
def Shape.fill (s : Shape σ) (r : σ) (n : Node) : Except Fault σ :=
  placed n.span? <|
    match n with
    | .table _ es _ => es.foldlM s.fillKey r
    | .moment _ => .error ⟨.unknownField momentKey s.names, none⟩
    | n =>
      match n.elements? with
      | some items => (s.fields.zip items).foldlM (fun r (f, n) => placed n.span? (f.fill n r)) r
      | none => .error ⟨.wrongKind n.kind (.record s.record), none⟩

end Toml

open Toml

/-- The fields of the target section. -/
def TargetSection.shape : Shape TargetSection where
  record := "TargetConfig"
  fields :=
    [.of "triple" asString fun v s => { s with triple := v },
     .of "target_dir" asPath fun v s => { s with targetDir := v }]

/-- The fields of the kernel section. -/
def KernelSection.shape : Shape KernelSection where
  record := "KernelConfig"
  fields :=
    [.of "bin" asString fun v s => { s with bin := v },
     .of "entry_source" asPath fun v s => { s with entrySource := v },
     .of "features" asStrings fun v s => { s with features := v },
     .of "no_default_features" asBoolean fun v s => { s with noDefaultFeatures := v }]

/-- The fields of the section on user programs. -/
def UserspaceSection.shape : Shape UserspaceSection where
  record := "UserspaceConfig"
  fields :=
    [.of "source_dir" asPath fun v s => { s with sourceDir := v },
     .of "install_dir" asPath fun v s => { s with installDir := v },
     .of "features" asStrings fun v s => { s with features := v },
     .of "no_default_features" asBoolean fun v s => { s with noDefaultFeatures := v },
     .of "rustc_args" asStrings fun v s => { s with rustcArgs := v }]

/-- The fields of the image section. -/
def ImageSection.shape : Shape ImageSection where
  record := "ImageConfig"
  fields :=
    [.of "path" asPath fun v s => { s with path := v },
     .of "capacity_mib" asWord64 fun v s => { s with capacityMib := v }]

/-- The fields of the tools section. -/
def ToolsSection.shape : Shape ToolsSection where
  record := "ToolsConfig"
  fields :=
    [.of "cargo" asString fun v s => { s with cargo := v },
     .of "strip" asString fun v s => { s with strip := v }]

/-- The fields of the emulator section. -/
def QemuSection.shape : Shape QemuSection where
  record := "QemuConfig"
  fields :=
    [.of "memory_mb" asWord32 fun v s => { s with memoryMb := v },
     .of "extra_args" asStrings fun v s => { s with extraArgs := v }]

/-- The sections of a configuration. -/
def Config.shape : Shape Config where
  record := "BuilderConfig"
  fields :=
    [.of "target" (TargetSection.shape.fill {}) fun v c => { c with target := v },
     .of "kernel" (KernelSection.shape.fill {}) fun v c => { c with kernel := v },
     .of "userspace" (UserspaceSection.shape.fill {}) fun v c => { c with userspace := v },
     .of "image" (ImageSection.shape.fill {}) fun v c => { c with image := v },
     .of "tools" (ToolsSection.shape.fill {}) fun v c => { c with tools := v },
     .of "qemu" (QemuSection.shape.fill {}) fun v c => { c with qemu := v }]

/-- Why a text is no configuration. A disagreement carries the text, so that it can be shown in place. -/
inductive ConfigError where
  | malformed
  | disagrees (text : String) (fault : Fault)
  | blankTriple
  | blankKernelBin
  | zeroCapacity
  | capacityTooLarge (mib : UInt64)
  deriving DecidableEq, Repr

/-- The words for an error; a disagreement is shown in its place in the text. -/
def ConfigError.message : ConfigError → String
  | malformed => "malformed TOML"
  | disagrees text ⟨m, some span⟩ => excerpt text span m.message
  | disagrees _ ⟨m, none⟩ => m.message ++ "\n"
  | blankTriple => "target.triple must not be empty"
  | blankKernelBin => "kernel.bin must not be empty"
  | zeroCapacity => "image.capacity_mib must be greater than zero"
  | capacityTooLarge mib => s!"image.capacity_mib = {mib.toNat} does not fit in a 64-bit byte count"

/-- The capacity of the image in bytes. -/
def ImageSection.capacityBytes (image : ImageSection) : Except ConfigError Nat :=
  match image.capacityBytes? with
  | some n => .ok n
  | none => .error (.capacityTooLarge image.capacityMib)

namespace Config

/-- What every configuration has to satisfy: a target and a kernel with a name, and an image of some size that can be counted. -/
def validate (c : Config) : Except ConfigError Unit :=
  if Text.allBlank c.target.triple then .error .blankTriple
  else if Text.allBlank c.kernel.bin then .error .blankKernelBin
  else if c.image.capacityMib = 0 then .error .zeroCapacity
  else c.image.capacityBytes.map fun _ => ()

/-- What the tree of a document says. -/
def ofEntries (es : Entries) : Except Fault Config :=
  shape.fill {} (.table .header es none)

/-- What a text says. -/
def parse (text : String) : Except ConfigError Config := do
  let es ← match Toml.parse text with
    | some es => .ok es
    | none => .error .malformed
  let c ← (ofEntries es).mapError (.disagrees text)
  c.validate
  return c

end Config

end BootDisk
