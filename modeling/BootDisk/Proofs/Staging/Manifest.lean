import BootDisk.Staging.Manifest
import BootDisk.Proofs.Json.Forms

/-!
# A manifest reads back

Every form of a manifest is read as that manifest (`Manifest.IsForm`), and so is the text that is written for it, whatever its texts hold
and however many entries it has. Whatever is read as a manifest, that manifest's own text is read as the same one, and is written again as it
is (`Manifest.round_trip`).
-/

namespace BootDisk

open Json

/-! ## The fields of an entry -/

namespace ManifestEntry

/-- The fields of an entry, as they are written. -/
def fields (e : ManifestEntry) : List (String × List Char) :=
  [("name", stringText e.name), ("path", stringText e.path.text), ("size", wordText e.size.toNat), ("sha256", stringText e.sha256)]

/-- An entry of which just the fields of these names have been read. -/
def draft (e : ManifestEntry) (names : List String) : Draft where
  name := if "name" ∈ names then some e.name else none
  path := if "path" ∈ names then some e.path else none
  size := if "size" ∈ names then some e.size else none
  sha256 := if "sha256" ∈ names then some e.sha256 else none

theorem gives (e : ManifestEntry) : shape.Gives e.fields e.draft e where
  distinct := by decide
  blank := rfl
  given := by
    intro m hm names
    simp only [shape, List.mem_cons, List.not_mem_nil, or_false] at hm
    rcases hm with rfl | rfl | rfl | rfl
    all_goals exact Member.given_of rfl
  reads :=
    .cons ⟨rfl, fun _ => Member.readsAs_of (readsAs_string .string e.name) (by simp [draft])⟩ <|
    .cons ⟨rfl, fun _ => Member.readsAs_of ((readsAs_string .path e.path.text).map Path.mk) (by simp [draft])⟩ <|
    .cons ⟨rfl, fun _ => Member.readsAs_of (readsAs_word e.size) (by simp [draft])⟩ <|
    .cons ⟨rfl, fun _ => Member.readsAs_of (readsAs_string .string e.sha256) (by simp [draft])⟩ .nil
  finish := by
    intro names hall
    have hnames : ∀ name ∈ ["name", "path", "size", "sha256"], name ∈ names := by simpa [shape] using hall
    simp [shape, draft, hnames]

end ManifestEntry

/-! ## The fields of a manifest -/

namespace Manifest

variable {m : Manifest} {text : String} {entries : List (List Char)}

/-- The fields of a manifest, as they are written, but for its entries, which have these texts. -/
def fields (m : Manifest) (level : Nat) (entries : List (List Char)) : List (String × List Char) :=
  [("mode", stringText m.profile), ("created_at_utc", stringText m.createdAt), ("stripped", booleanText m.stripped),
   ("artifacts", arrayText level entries)]

/-- A manifest of which just the fields of these names have been read. -/
def draft (m : Manifest) (names : List String) : Draft where
  profile := if "mode" ∈ names then some m.profile else none
  createdAt := if "created_at_utc" ∈ names then some m.createdAt else none
  stripped := if "stripped" ∈ names then some m.stripped else none
  entries := if "artifacts" ∈ names then some m.entries else none

theorem gives (h : List.Forall₂ (ReadsAs ManifestEntry.shape.read) entries m.entries) (level : Nat) :
    shape.Gives (m.fields level entries) m.draft m where
  distinct := by decide
  blank := rfl
  given := by
    intro m hm names
    simp only [shape, List.mem_cons, List.not_mem_nil, or_false] at hm
    rcases hm with rfl | rfl | rfl | rfl
    all_goals exact Member.given_of rfl
  reads :=
    .cons ⟨rfl, fun _ => Member.readsAs_of (readsAs_string .string m.profile) (by simp [draft])⟩ <|
    .cons ⟨rfl, fun _ => Member.readsAs_of (readsAs_string .string m.createdAt) (by simp [draft])⟩ <|
    .cons ⟨rfl, fun _ => Member.readsAs_of (readsAs_boolean m.stripped) (by simp [draft])⟩ <|
    .cons ⟨rfl, fun _ => Member.readsAs_of (readsAs_list h level) (by simp [draft])⟩ .nil
  finish := by
    intro names hall
    have hnames : ∀ name ∈ ["mode", "created_at_utc", "stripped", "artifacts"], name ∈ names := by simpa [shape] using hall
    simp [shape, draft, hnames]

/-! ## Reading and writing -/

/-- A text that is a form of the manifest, and of each of its entries. -/
def IsForm (m : Manifest) (text : String) : Prop :=
  ∃ level entries, List.Forall₂ (fun chars e => Form (ManifestEntry.fields e) chars) entries m.entries ∧
    Form (m.fields level entries) text.toList

theorem isForm_text (m : Manifest) : m.IsForm m.text := by
  refine ⟨1, m.entries.map entryText, ?_, ?_⟩
  · rw [List.forall₂_map_left_iff, List.forall₂_same]
    exact fun e _ => .of_fields e.fields 2
  · rw [text, String.toList_ofList]
    exact .of_fields (m.fields 1 (m.entries.map entryText)) 0

theorem ofText_of_isForm (h : m.IsForm text) : ofText text = .ok m := by
  obtain ⟨level, entries, hentries, hform⟩ := h
  exact Shape.readAll_of_readsAs ((gives (hentries.imp fun _ e he => e.gives.readsAs he) level).readsAs hform)

theorem ofText_text (m : Manifest) : ofText m.text = .ok m :=
  ofText_of_isForm m.isForm_text

/-- Every manifest is read from its text, and from every other form of it: objects with their keys in any order, and other keys between them,
and arrays of the fields in order. Whatever text is read as a manifest, the text that is written for that manifest is read as the same one,
and nothing else is written for what is read. -/
theorem round_trip :
    (∀ m, ofText m.text = .ok m) ∧ (∀ m text, m.IsForm text → ofText text = .ok m) ∧
      ∀ text m, ofText text = .ok m → ofText m.text = .ok m ∧ ∀ m', ofText m.text = .ok m' → m'.text = m.text := by
  refine ⟨ofText_text, fun _ _ => ofText_of_isForm, fun _ m _ => ⟨m.ofText_text, fun m' h => ?_⟩⟩
  cases m.ofText_text.symm.trans h
  rfl

/-- A manifest with marks of the format, a control character and a character of four bytes in its texts, and the least and the greatest
size. -/
def sampleMixed : Manifest where
  profile := "a\"b\\\n\x01😀"
  createdAt := ""
  stripped := false
  entries := [⟨"é", ⟨"dsk/bin/é"⟩, 18446744073709551615, ""⟩, ⟨"b", ⟨""⟩, 0, "\x7b"⟩]

/-- Its entries, one as an array and the other as an object in another order and with another key. -/
def mixedEntries : List (List Char) :=
  [arrayText 1 [stringText "é", stringText "dsk/bin/é", wordText 18446744073709551615, stringText ""],
   objectText 0 [("size", wordText 0), ("mode", booleanText true), ("sha256", stringText "\x7b"), ("path", stringText ""),
     ("name", stringText "b")]]

/-- The manifest as an object with its keys in another order, and with a key twice that nobody knows. -/
def mixedText : String :=
  String.ofList <| objectText 0
    [("x", arrayText 1 [wordText 7, ['n', 'u', 'l', 'l']]), ("artifacts", arrayText 3 mixedEntries), ("stripped", booleanText false),
     ("x", objectText 0 []), ("created_at_utc", stringText ""), ("mode", stringText "a\"b\\\n\x01😀")]

theorem isForm_mixedText : sampleMixed.IsForm mixedText := by
  refine ⟨3, mixedEntries, .cons (.array 1) (.cons (.object 0 (by decide +kernel) ?_) .nil), ?_⟩
  · intro m hm hname
    simp only [List.mem_cons, List.not_mem_nil, or_false] at hm
    rcases hm with rfl | rfl | rfl | rfl | rfl
    case inr.inl => exact .boolean true
    all_goals exact absurd (by decide) hname
  · rw [mixedText, String.toList_ofList]
    refine .object 0 (by decide +kernel) ?_
    intro m hm hname
    simp only [List.mem_cons, List.not_mem_nil, or_false] at hm
    rcases hm with rfl | rfl | rfl | rfl | rfl | rfl
    · exact .array 1 (List.forall_mem_cons.2 ⟨.word 7, List.forall_mem_singleton.2 .null⟩)
    case inr.inr.inr.inl => exact .object 0 (List.forall_mem_nil _)
    all_goals exact absurd (by decide) hname

/-- It is read from there, and from the text that is written for it, which is another one. -/
theorem round_trip_sampleMixed :
    sampleMixed.IsForm mixedText ∧ ofText mixedText = .ok sampleMixed ∧ ofText sampleMixed.text = .ok sampleMixed ∧
      mixedText ≠ sampleMixed.text := by
  obtain ⟨-, hforms, hagain⟩ := round_trip
  have hmixed := hforms sampleMixed mixedText isForm_mixedText
  exact ⟨isForm_mixedText, hmixed, (hagain mixedText sampleMixed hmixed).1, by decide +kernel⟩

end Manifest

end BootDisk
