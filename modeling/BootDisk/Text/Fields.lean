/-!
# Fields of a text

A text cut at every occurrence of a separator. There is always one field more than separators, so the empty text is one empty
field, and putting the separator back between the fields gives the text again.
-/

namespace BootDisk.Text

/-- The fields between the separators. -/
def fields (sep : Char) : List Char → List (List Char)
  | [] => [[]]
  | c :: cs =>
    if c = sep then [] :: fields sep cs
    else
      match fields sep cs with
      | [] => [[c]]
      | f :: fs => (c :: f) :: fs

/-- The text whose fields these are. -/
def unfields (sep : Char) : List (List Char) → List Char
  | [] => []
  | [f] => f
  | f :: fs => f ++ sep :: unfields sep fs

theorem fields_ne_nil (sep : Char) (cs : List Char) : fields sep cs ≠ [] := by
  cases cs with
  | nil => simp [fields]
  | cons c cs =>
    simp only [fields]
    split
    · simp
    · split <;> simp

/-- Cutting and putting back loses nothing. -/
theorem unfields_fields (sep : Char) (cs : List Char) : unfields sep (fields sep cs) = cs := by
  induction cs with
  | nil => rfl
  | cons c cs ih =>
    simp only [fields]
    split
    · next h =>
      cases hf : fields sep cs with
      | nil => exact absurd hf (fields_ne_nil sep cs)
      | cons f fs => rw [hf] at ih; simp [unfields, ih, h]
    · cases hf : fields sep cs with
      | nil => exact absurd hf (fields_ne_nil sep cs)
      | cons f fs =>
        rw [hf] at ih
        cases fs with
        | nil => simp_all [unfields]
        | cons g gs => simp only [unfields] at ih ⊢; rw [← ih]; simp

end BootDisk.Text
