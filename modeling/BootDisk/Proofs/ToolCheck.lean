import Mathlib.Data.Prod.Lex
import Mathlib.Data.String.Basic
import BootDisk.Proofs.Machine
import BootDisk.ToolCheck

/-!
# Looking for tools

A look for tools ends well exactly when each of them is there, and otherwise names those that are not. Tools that are put in order come
strictly in the order of their names and hints, and are the same tools.
-/

namespace BootDisk

section WithoutRepeats

variable {α β : Type} [DecidableEq α] {l : List α}

/-- Leaving out repeats leaves no element out altogether. -/
theorem mem_withoutRepeats {a : α} : a ∈ withoutRepeats l ↔ a ∈ l := by
  fun_induction withoutRepeats l with
  | case1 b rest ih => simp only [ih, List.mem_cons, or_self_left]
  | case2 b c rest _ ih => rw [List.mem_cons, List.mem_cons, ih]
  | case3 => rfl

/-- In a list in order, repeats are neighbours, so that none is left. -/
theorem strict_withoutRepeats [PartialOrder β] {key : α → β} (hkey : Function.Injective key) (h : l.Pairwise fun a b => key a ≤ key b) :
    (withoutRepeats l).Pairwise fun a b => key a < key b := by
  fun_induction withoutRepeats l with
  | case1 b rest ih => exact ih (List.pairwise_cons.1 h).2
  | case2 a b rest hab ih =>
    obtain ⟨ha, hrest⟩ := List.pairwise_cons.1 h
    refine List.pairwise_cons.2 ⟨fun c hc => ?_, ih hrest⟩
    have hlt : key a < key b := lt_of_le_of_ne (ha b List.mem_cons_self) fun heq => hab (hkey heq)
    rcases List.mem_cons.1 (mem_withoutRepeats.1 hc) with rfl | hc
    · exact hlt
    · exact lt_of_lt_of_le hlt ((List.pairwise_cons.1 hrest).1 c hc)
  | case3 l hl =>
    cases l with
    | nil => exact .nil
    | cons a rest =>
      cases rest with
      | nil => exact List.pairwise_singleton _ _
      | cons b rest => exact (hl a b rest rfl).elim

end WithoutRepeats

namespace Tool

/-- The order of tools is that by name, and for one name by hint. -/
theorem inOrder_iff {a b : Tool} : inOrder a b = true ↔ toLex a ≤ toLex b := by
  rw [Prod.Lex.toLex_le_toLex]
  unfold inOrder
  split
  · next h => simp [h]
  · next h => simp [h, lt_iff_le_and_ne]

theorem mem_sorted {t : Tool} {tools : List Tool} : t ∈ sorted tools ↔ t ∈ tools := by
  rw [sorted, mem_withoutRepeats, List.mem_mergeSort]

/-- Tools put in order come strictly in order, and so each of them once. -/
theorem strict_sorted (tools : List Tool) : (sorted tools).Pairwise fun a b => toLex a < toLex b := by
  refine strict_withoutRepeats toLex.injective ?_
  have htrans (a b c : Tool) (hab : inOrder a b = true) (hbc : inOrder b c = true) : inOrder a c = true :=
    inOrder_iff.2 ((inOrder_iff.1 hab).trans (inOrder_iff.1 hbc))
  have htotal (a b : Tool) : (inOrder a b || inOrder b a) = true := by
    rw [Bool.or_eq_true, inOrder_iff, inOrder_iff]
    exact le_total _ _
  exact (List.pairwise_mergeSort htrans htotal tools).imp inOrder_iff.1

end Tool

/-- The tools that are not on a machine. -/
def Machine.missing (m : Machine) (tools : List Tool) : List Tool :=
  tools.filter fun t => !m.hasTool t.1

namespace Machine

variable {m : Machine} {tools : List Tool}

theorem mem_missing {t : Tool} : t ∈ m.missing tools ↔ t ∈ tools ∧ m.hasTool t.1 = false := by
  rw [missing, List.mem_filter, Bool.not_eq_true']

theorem missing_eq_nil_iff : m.missing tools = [] ↔ ∀ t ∈ tools, m.hasTool t.1 = true := by
  simp [missing]

/-- Some tool is not there, or they all are. -/
theorem missing_or_found (m : Machine) (tools : List Tool) :
    (∃ t ∈ tools, m.hasTool t.1 = false) ∨ ∀ t ∈ tools, m.hasTool t.1 = true := by
  by_cases h : ∃ t ∈ tools, m.hasTool t.1 = false
  · exact Or.inl h
  · exact Or.inr fun t ht => by simpa using fun hno => h ⟨t, ht, hno⟩

end Machine

variable {m : Machine} {tools : List Tool}

/-- Looking for tools changes nothing. -/
theorem endOf_checkTools (tools : List Tool) (m : Machine) : endOf (checkTools tools m) = m := by
  unfold checkTools
  split <;> rfl

/-- A look for tools that are all there ends well. -/
theorem checkTools_of_found (h : ∀ t ∈ tools, m.hasTool t.1 = true) : checkTools tools m = .ok () m := by
  unfold checkTools
  rw [show tools.filter (fun t => !m.hasTool t.1) = [] from Machine.missing_eq_nil_iff.2 h]

/-- A look for tools fails by those that are not there. -/
theorem checkTools_of_missing (h : ∃ t ∈ tools, m.hasTool t.1 = false) :
    checkTools tools m = .error { cause := .toolsMissing (m.missing tools) } m := by
  obtain ⟨t, ht, hmissing⟩ := h
  unfold checkTools
  split
  · next hnil =>
    have hfound := Machine.missing_eq_nil_iff.1 hnil t ht
    rw [hmissing] at hfound
    cases hfound
  · rfl

/-- A look for tools ends well exactly when they are all there. -/
theorem endedWell_checkTools : endedWell (checkTools tools m) = true ↔ ∀ t ∈ tools, m.hasTool t.1 = true := by
  constructor
  · intro h t ht
    by_contra hfound
    rw [checkTools_of_missing ⟨t, ht, Bool.eq_false_iff.2 hfound⟩] at h
    cases h
  · intro h
    rw [checkTools_of_found h]
    rfl

end BootDisk
