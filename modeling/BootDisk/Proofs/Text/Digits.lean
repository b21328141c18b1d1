/-!
# Decimal digits

The digits of a number are written without a zero in front, and each of them is one of the ten digits. What they denote is said by
`Nat.ofDigitChars_toDigits`.
-/

namespace BootDisk.DigitsAux

variable {n : Nat} {c : Char} {cs : List Char}

theorem isDigit_of_mem (h : c ∈ Nat.toDigits 10 n) : c.isDigit = true :=
  Nat.isDigit_of_mem_toDigits (by decide) (by decide) h

/-- Digits start with a zero only where the number is zero. The induction takes the last digit off. -/
theorem eq_zero_of_toDigits (h : Nat.toDigits 10 n = '0' :: cs) : n = 0 := by
  induction n using Nat.strongRecOn generalizing cs with
  | _ n ih =>
    rw [Nat.toDigits_eq_if (by decide)] at h
    split at h
    · next hn =>
      have hdigit : n.digitChar = '0' := by simpa using congrArg List.head? h
      have hall : ∀ k < 10, k.digitChar = '0' → k = 0 := by decide
      exact hall n hn hdigit
    · next hn =>
      obtain ⟨d, ds, hds⟩ := List.exists_cons_of_ne_nil (Nat.toDigits_ne_nil (n := n / 10) (b := 10))
      rw [hds, List.cons_append] at h
      have hd : d = '0' := by simpa using congrArg List.head? h
      have hzero := ih (n / 10) (by omega) (hd ▸ hds)
      omega

/-- A number is zero, or its digits start with another one. -/
theorem toDigits_cases (n : Nat) : n = 0 ∨ ∃ c cs, Nat.toDigits 10 n = c :: cs ∧ c ≠ '0' := by
  obtain ⟨c, cs, hcs⟩ := List.exists_cons_of_ne_nil (Nat.toDigits_ne_nil (n := n) (b := 10))
  by_cases hc : c = '0'
  · exact Or.inl (eq_zero_of_toDigits (hc ▸ hcs))
  · exact Or.inr ⟨c, cs, hcs, hc⟩

end BootDisk.DigitsAux
