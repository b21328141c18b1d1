import BootDisk.Proofs.Discovery

/-!
# Paths from their end

The last name of a path is what stands behind its last slash, whatever stands in front (`Path.fileName?_behind`). Joining a relative path
to a directory changes only what stands in front, so the last name and its stem stay (`Path.exists_join_behind`), and what is joined to an
absolute path is absolute.
-/

namespace BootDisk.Path

/-- What can stand in front of the last name of a path: nothing, or a text with a slash at its end. -/
def IsFront (front : String) : Prop :=
  front.toList = [] ∨ front.toList.getLast? = some '/'

instance (front : String) : Decidable (IsFront front) :=
  inferInstanceAs (Decidable (_ ∨ _))

variable {front after n : String}

/-- A front behind a front is a front. -/
theorem IsFront.append (hfront : IsFront front) (hafter : IsFront after) : IsFront (front ++ after) := by
  unfold IsFront at hfront hafter ⊢
  rw [String.toList_append]
  rcases hafter with hnil | hslash
  · rwa [hnil, List.append_nil]
  · exact Or.inr (by rw [List.getLast?_append, hslash, Option.some_or])

theorem isFront_append_slash (s : String) : IsFront (s ++ "/") := by
  right
  rw [String.toList_append]
  exact List.getLast?_concat ..

/-- Every text is a part without a slash behind a front. -/
theorem exists_front (s : String) : ∃ front n, s = front ++ n ∧ IsFront front ∧ '/' ∉ n.toList := by
  have hchars (cs : List Char) : ∃ front n, cs = front ++ n ∧ (front = [] ∨ front.getLast? = some '/') ∧ '/' ∉ n := by
    -- the rest is cut already: a character more goes to its front, and without a front to the part behind, unless it is a slash
    induction cs with
    | nil => exact ⟨[], [], rfl, Or.inl rfl, List.not_mem_nil⟩
    | cons c cs ih =>
      obtain ⟨front, n, rfl, hfront, hn⟩ := ih
      rcases hfront with rfl | hslash
      · by_cases hc : c = '/'
        · exact ⟨[c], n, rfl, Or.inr (congrArg some hc), hn⟩
        · exact ⟨[], c :: n, rfl, Or.inl rfl, List.not_mem_cons_of_ne_of_not_mem (Ne.symm hc) hn⟩
      · exact ⟨c :: front, n, rfl, Or.inr (by rw [List.getLast?_cons, hslash]; rfl), hn⟩
  obtain ⟨front, n, hs, hfront, hn⟩ := hchars s.toList
  refine ⟨String.ofList front, String.ofList n, ?_, ?_, ?_⟩
  · rw [← String.ofList_append, ← hs, String.ofList_toList]
  · rwa [IsFront, String.toList_ofList]
  · rwa [String.toList_ofList]

/-! ## The last name -/

section Behind

variable (hfront : IsFront front) (hn : IsFileName n)
include hfront hn

/-- The last name of a path is what stands behind its last slash. -/
theorem fileName?_behind : (Path.mk (front ++ n)).fileName? = some n := by
  rcases hfront with hnil | hslash
  · rw [String.toList_eq_nil_iff.1 hnil, String.empty_append]
    exact fileName?_name hn
  · obtain ⟨dirs, hdirs⟩ := List.getLast?_eq_some_iff.1 hslash
    have hparts : Text.fields '/' (front ++ n).toList = Text.fields '/' dirs ++ [n.toList] := by
      rw [String.toList_append, hdirs, List.append_assoc, List.singleton_append, TextAux.fields_append,
        TextAux.fields_of_not_mem hn.no_slash]
    unfold fileName? components
    dsimp only
    rw [hparts]
    simp [hn.ne_nil, hn.ne_here, hn.ne_up]

/-- Its stem is read off that name alone. -/
theorem fileStem?_behind : (Path.mk (front ++ n)).fileStem? = some (String.ofList (cutAtLastDot n.toList).1) := by
  rw [fileStem?, fileName?_behind hfront hn, Option.map_some]

end Behind

/-! ## Joining -/

/-- Joining a relative path to a directory changes only what stands in front of its last name. -/
theorem exists_join_behind (hfront : IsFront front) (hrelative : (Path.mk (front ++ n)).isAbsolute = false) (dir : Path) :
    ∃ front', IsFront front' ∧ dir.join ⟨front ++ n⟩ = ⟨front' ++ n⟩ := by
  unfold join
  rw [hrelative, if_neg nofun]
  split
  · next hdir =>
    exact ⟨dir.text ++ front, IsFront.append hdir hfront, congrArg Path.mk (String.append_assoc ..).symm⟩
  · exact ⟨dir.text ++ "/" ++ front, (isFront_append_slash dir.text).append hfront, congrArg Path.mk (String.append_assoc ..).symm⟩

/-- What is joined to an absolute path is absolute. -/
theorem isAbsolute_join {dir : Path} (hdir : dir.isAbsolute = true) (p : Path) : (dir.join p).isAbsolute = true := by
  have hfirst (s : String) : (Path.mk (dir.text ++ s)).isAbsolute = true := by
    unfold isAbsolute at hdir ⊢
    rw [String.toList_append]
    cases h : dir.text.toList with
    | nil =>
      rw [h] at hdir
      cases hdir
    | cons c cs =>
      rw [h] at hdir
      exact hdir
  unfold join
  split
  · next hp => exact hp
  · split
    · exact hfirst p.text
    · rw [String.append_assoc]
      exact hfirst ("/" ++ p.text)

end BootDisk.Path
