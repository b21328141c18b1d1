/-!
# Results and tables

What several parts share: when a chain of steps that can fail ends well, what a table with distinct keys has for a key,
and what is related to something if anything is.
-/

namespace BootDisk

namespace ExceptAux

/-- A sequence ends well exactly when its first part does and the rest does with what that came to. -/
theorem bind_eq_ok {ε α β : Type} {x : Except ε α} {f : α → Except ε β} {b : β} :
    (x >>= f) = .ok b ↔ ∃ a, x = .ok a ∧ f a = .ok b := by
  cases x with
  | ok a => exact ⟨fun h => ⟨a, rfl, h⟩, fun ⟨a', ha, h⟩ => Except.ok.inj ha ▸ h⟩
  | error e => exact ⟨nofun, nofun⟩

theorem map_eq_ok {ε α β : Type} {x : Except ε α} {f : α → β} {b : β} : x.map f = .ok b ↔ ∃ a, x = .ok a ∧ f a = b := by
  cases x with
  | ok a => exact ⟨fun h => ⟨a, rfl, Except.ok.inj h⟩, fun ⟨a', ha, h⟩ => Except.ok.inj ha ▸ congrArg Except.ok h⟩
  | error e => exact ⟨nofun, nofun⟩

theorem toOption_eq_some {ε α : Type} {x : Except ε α} {a : α} : x.toOption = some a ↔ x = .ok a := by
  cases x <;> simp [Except.toOption]

/-- Steps that succeed or fail whatever went before all succeed exactly if each of them does. -/
theorem exists_foldlM_eq_ok {ε σ β : Type} {step : σ → β → Except ε σ} {P : β → Prop} {bs : List β}
    (hstep : ∀ b ∈ bs, ∀ r, (∃ r', step r b = .ok r') ↔ P b) (r : σ) : (∃ r', bs.foldlM step r = .ok r') ↔ ∀ b ∈ bs, P b := by
  induction bs generalizing r with
  | nil => simp [pure, Except.pure]
  | cons b bs ih =>
    obtain ⟨hb, hbs⟩ := List.forall_mem_cons.1 hstep
    rw [List.foldlM_cons, List.forall_mem_cons, ← hb r]
    constructor
    · rintro ⟨r', h⟩
      obtain ⟨mid, hmid, hrest⟩ := bind_eq_ok.1 h
      exact ⟨⟨mid, hmid⟩, (ih hbs mid).1 ⟨r', hrest⟩⟩
    · rintro ⟨⟨mid, hmid⟩, hall⟩
      obtain ⟨r', hrest⟩ := (ih hbs mid).2 hall
      exact ⟨r', bind_eq_ok.2 ⟨mid, hmid, hrest⟩⟩

end ExceptAux

namespace ListAux

/-- In a table with distinct keys, what a key is looked up as is what stands with it. -/
theorem lookup_eq_some_iff_mem {α β : Type} [BEq α] [LawfulBEq α] {l : List (α × β)} (h : (l.map Prod.fst).Nodup) {a : α} {b : β} :
    l.lookup a = some b ↔ (a, b) ∈ l := by
  rw [List.lookup_eq_some_iff]
  constructor
  · rintro ⟨before, after, hsplit, -⟩
    rw [hsplit]
    exact List.mem_append_right _ List.mem_cons_self
  · intro hmem
    obtain ⟨before, after, hsplit⟩ := List.append_of_mem hmem
    refine ⟨before, after, hsplit, ?_⟩
    intro e he
    rw [hsplit, List.map_append, List.nodup_append] at h
    simpa using (h.2.2 e.1 (List.mem_map_of_mem he) a (by simp)).symm

end ListAux

namespace OptionAux

theorem exists_of_rel_some {α β : Type} {r : α → β → Prop} {a? : Option α} {b : β} (h : Option.Rel r a? (some b)) :
    ∃ a, a? = some a ∧ r a b := by
  cases h with
  | some h => exact ⟨_, rfl, h⟩

theorem exists_of_some_rel {α β : Type} {r : α → β → Prop} {a : α} {b? : Option β} (h : Option.Rel r (some a) b?) :
    ∃ b, b? = some b ∧ r a b := by
  cases h with
  | some h => exact ⟨_, rfl, h⟩

theorem eq_none_of_none_rel {α β : Type} {r : α → β → Prop} {b? : Option β} (h : Option.Rel r none b?) : b? = none := by
  cases h
  rfl

end OptionAux

end BootDisk
