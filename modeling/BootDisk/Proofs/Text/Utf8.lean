import BootDisk.Text.Utf8

/-!
# Bytes of texts

The bytes that a text is written in are read back as the text (`Text.decode?_encode`), and texts are ordered as their bytes are
(`Text.encode_lt_encode`). Both are told character by character: a lead byte and up to three that continue it, each of which carries six
bits of the character's number.
-/

namespace BootDisk.Text

/-! ## Single bytes -/

theorem toNat_ofNat {n : Nat} (h : n < 256) : (UInt8.ofNat n).toNat = n := by
  rw [UInt8.toNat_ofNat']
  omega

theorem isContinuation_ofNat {n : Nat} (h : n < 256) : isContinuation (UInt8.ofNat n) = decide (128 ≤ n ∧ n ≤ 191) := by
  have hn := toNat_ofNat h
  simp only [isContinuation, UInt8.le_iff_toNat_le, hn, Bool.decide_and]
  rfl

theorem followCount_ofNat {n : Nat} (h : n < 256) :
    followCount (UInt8.ofNat n) =
      if n < 128 then some 0 else if 194 ≤ n ∧ n ≤ 223 then some 1 else if 224 ≤ n ∧ n ≤ 239 then some 2
      else if 240 ≤ n ∧ n ≤ 244 then some 3 else none := by
  have hn := toNat_ofNat h
  simp only [followCount, UInt8.lt_iff_toNat_lt, UInt8.le_iff_toNat_le, hn, Bool.and_eq_true, decide_eq_true_eq]
  rfl

theorem leadBits_ofNat {n : Nat} (h : n < 256) :
    leadBits (UInt8.ofNat n) = if n < 128 then n else if n < 224 then n % 32 else if n < 240 then n % 16 else n % 8 := by
  have hn := toNat_ofNat h
  simp only [leadBits, UInt8.lt_iff_toNat_lt, hn]
  rfl

theorem followRange_ofNat {n : Nat} (h : n < 256) :
    followRange (UInt8.ofNat n) =
      if n = 224 then (160, 191) else if n = 237 then (128, 159) else if n = 240 then (144, 191)
      else if n = 244 then (128, 143) else (128, 191) := by
  have hn := toNat_ofNat h
  simp only [followRange, beq_iff_eq, ← UInt8.toNat_inj, hn]
  rfl

/-! ## Reading back -/

/-- One continuation byte is taken with its payload. -/
theorem takeContinuations_cons {n acc b : Nat} (h : b < 64) (rest : List UInt8) :
    takeContinuations (n + 1) acc (UInt8.ofNat (b + 128) :: rest) = takeContinuations n (acc * 64 + b) rest := by
  have hc : isContinuation (UInt8.ofNat (b + 128)) = true := by
    rw [isContinuation_ofNat (by omega), decide_eq_true_eq]
    omega
  have hb : (UInt8.ofNat (b + 128)).toNat % 64 = b := by
    rw [toNat_ofNat (by omega)]
    omega
  rw [takeContinuations, if_pos hc, hb]

/-- A lead byte and a first continuation byte that is in its range give the character, if the other continuation bytes are there. -/
theorem readChar_of_range (k lo hi : Nat) {lead b n : Nat} (hb : b < 64) (hlo : lo ≤ b + 128) (hhi : b + 128 ≤ hi) (hmax : hi < 256)
    (hk : followCount (UInt8.ofNat lead) = some (k + 1)) (hr : followRange (UInt8.ofNat lead) = (UInt8.ofNat lo, UInt8.ofNat hi))
    {more rest : List UInt8}
    (ht : takeContinuations k (leadBits (UInt8.ofNat lead) * 64 + b) (more ++ rest) = (true, n, rest)) :
    readChar (UInt8.ofNat lead) (UInt8.ofNat (b + 128) :: more ++ rest) = (some (Char.ofNat n), rest) := by
  have hb' : (UInt8.ofNat (b + 128)).toNat % 64 = b := by
    rw [toNat_ofNat (by omega)]
    omega
  have hrange : (UInt8.ofNat lo ≤ UInt8.ofNat (b + 128) && UInt8.ofNat (b + 128) ≤ UInt8.ofNat hi) = true := by
    simp only [UInt8.le_iff_toNat_le, Bool.and_eq_true, decide_eq_true_eq]
    rw [toNat_ofNat (by omega), toNat_ofNat hmax, toNat_ofNat (by omega)]
    exact ⟨hlo, hhi⟩
  unfold readChar
  rw [hk]
  simp only [List.cons_append, hr, hrange, if_true, hb', ht]

/-- What is read back from the bytes of a character is the character. -/
theorem readChar_utf8EncodeChar (c : Char) (rest : List UInt8) :
    ∃ lead more, String.utf8EncodeChar c = lead :: more ∧ readChar lead (more ++ rest) = (some c, rest) := by
  have hc : Char.ofNat c.val.toNat = c := Char.ofNat_toNat c
  have hvalid : c.val.toNat < 0xD800 ∨ (0xDFFF < c.val.toNat ∧ c.val.toNat < 0x110000) := c.valid
  generalize hn : c.val.toNat = n at hc hvalid
  unfold String.utf8EncodeChar
  rw [hn]
  by_cases h₁ : n ≤ 127
  · refine ⟨_, _, if_pos h₁, ?_⟩
    have hcount : followCount (UInt8.ofNat n) = some 0 := by
      rw [followCount_ofNat (by omega), if_pos (by omega)]
    unfold readChar
    rw [hcount]
    simp [toNat_ofNat (show n < 256 by omega), hc]
  by_cases h₂ : n ≤ 2047
  · refine ⟨UInt8.ofNat (n / 64 % 32 + 192), [UInt8.ofNat (n % 64 + 128)], by simp only [h₁, h₂, if_false, if_true], ?_⟩
    rw [← hc]
    refine readChar_of_range 0 128 191 (by omega) (by omega) (by omega) (by omega) ?_ ?_ ?_
    · rw [followCount_ofNat (by omega), if_neg (by omega), if_pos (by omega)]
    · rw [followRange_ofNat (by omega), if_neg (by omega), if_neg (by omega), if_neg (by omega), if_neg (by omega)]
      rfl
    · rw [leadBits_ofNat (by omega), if_neg (by omega), if_pos (by omega), takeContinuations, List.nil_append]
      congr 2
      omega
  by_cases h₃ : n ≤ 65535
  · refine ⟨UInt8.ofNat (n / 4096 % 16 + 224), [UInt8.ofNat (n / 64 % 64 + 128), UInt8.ofNat (n % 64 + 128)],
      by simp only [h₁, h₂, h₃, if_false, if_true], ?_⟩
    rw [← hc]
    refine readChar_of_range 1 (if n / 4096 % 16 = 0 then 160 else 128) (if n / 4096 % 16 = 13 then 159 else 191) (by omega) ?_ ?_ ?_
      ?_ ?_ ?_
    · split <;> omega
    · split <;> omega
    · split <;> omega
    · rw [followCount_ofNat (by omega), if_neg (by omega), if_neg (by omega), if_pos (by omega)]
    · rw [followRange_ofNat (by omega)]
      by_cases h0 : n / 4096 % 16 = 0
      · rw [if_pos (by omega), if_pos h0, if_neg (by omega)]
        rfl
      by_cases h13 : n / 4096 % 16 = 13
      · rw [if_neg (by omega), if_pos (by omega), if_neg h0, if_pos h13]
        rfl
      · rw [if_neg (by omega), if_neg (by omega), if_neg (by omega), if_neg (by omega), if_neg h0, if_neg h13]
        rfl
    · rw [leadBits_ofNat (by omega), if_neg (by omega), if_neg (by omega), if_pos (by omega)]
      rw [List.cons_append, takeContinuations_cons (by omega), takeContinuations, List.nil_append]
      congr 2
      omega
  · refine ⟨UInt8.ofNat (n / 262144 % 8 + 240),
      [UInt8.ofNat (n / 4096 % 64 + 128), UInt8.ofNat (n / 64 % 64 + 128), UInt8.ofNat (n % 64 + 128)],
      by simp only [h₁, h₂, h₃, if_false], ?_⟩
    rw [← hc]
    refine readChar_of_range 2 (if n / 262144 % 8 = 0 then 144 else 128) (if n / 262144 % 8 = 4 then 143 else 191) (by omega) ?_ ?_
      ?_ ?_ ?_ ?_
    · split <;> omega
    · split <;> omega
    · split <;> omega
    · rw [followCount_ofNat (by omega), if_neg (by omega), if_neg (by omega), if_neg (by omega), if_pos (by omega)]
    · rw [followRange_ofNat (by omega)]
      by_cases h0 : n / 262144 % 8 = 0
      · rw [if_neg (by omega), if_neg (by omega), if_pos (by omega), if_pos h0, if_neg (by omega)]
        rfl
      by_cases h4 : n / 262144 % 8 = 4
      · rw [if_neg (by omega), if_neg (by omega), if_neg (by omega), if_pos (by omega), if_neg h0, if_pos h4]
        rfl
      · rw [if_neg (by omega), if_neg (by omega), if_neg (by omega), if_neg (by omega), if_neg h0, if_neg h4]
        rfl
    · rw [leadBits_ofNat (by omega), if_neg (by omega), if_neg (by omega), if_neg (by omega)]
      rw [List.cons_append, takeContinuations_cons (by omega), List.cons_append, takeContinuations_cons (by omega), takeContinuations,
        List.nil_append]
      congr 2
      omega

theorem readChars_encode (cs : List Char) (steps : Nat) (h : (cs.flatMap String.utf8EncodeChar).length ≤ steps) :
    readChars steps (cs.flatMap String.utf8EncodeChar) = cs.map some := by
  induction cs generalizing steps with
  | nil => cases steps <;> rfl
  | cons c cs ih =>
    obtain ⟨lead, more, henc, hread⟩ := readChar_utf8EncodeChar c (cs.flatMap String.utf8EncodeChar)
    rw [List.flatMap_cons, henc] at h ⊢
    simp only [List.cons_append, List.length_cons, List.length_append] at h
    obtain ⟨steps, rfl⟩ : ∃ k, steps = k + 1 := ⟨steps - 1, by omega⟩
    rw [List.cons_append, readChars, hread]
    simp only [List.map_cons]
    rw [ih _ (by omega)]

/-- What is written can be read back. -/
theorem decode?_encode (s : String) : decode? (encode s) = some s := by
  have hsome : (s.toList.map some).mapM id = some s.toList := by
    induction s.toList with
    | nil => rfl
    | cons c cs ih => rw [List.map_cons, List.mapM_cons, ih]; rfl
  rw [decode?, encode, readChars_encode _ _ (Nat.le_refl _), hsome, Option.map_some, String.ofList_toList]

/-! ## Order -/

theorem ofNat_lt_ofNat {a b : Nat} (ha : a < b) (hb : b < 256) : UInt8.ofNat a < UInt8.ofNat b := by
  rw [UInt8.lt_iff_toNat_lt, toNat_ofNat (by omega), toNat_ofNat hb]
  exact ha

/-- The bytes of a smaller character come first, whatever follows. -/
theorem utf8EncodeChar_append_lt {c d : Char} (h : c < d) (u v : List UInt8) :
    String.utf8EncodeChar c ++ u < String.utf8EncodeChar d ++ v := by
  have hlt : c.val.toNat < d.val.toNat := h
  have hmax : d.val.toNat < 0x110000 := by
    rcases d.valid with hd | hd
    · exact Nat.lt_trans hd (by decide)
    · exact hd.2
  unfold String.utf8EncodeChar
  generalize c.val.toNat = n at hlt
  generalize d.val.toNat = m at hlt hmax
  -- a byte that is smaller decides, and so does the next one where two are equal
  have first {a b : Nat} {as bs : List UInt8} (hab : a < b) (hb : b < 256) : UInt8.ofNat a :: as < UInt8.ofNat b :: bs :=
    List.cons_lt_cons_iff.2 (Or.inl (ofNat_lt_ofNat hab hb))
  have next {a b : Nat} {as bs : List UInt8} (hab : a = b) (h : as < bs) : UInt8.ofNat a :: as < UInt8.ofNat b :: bs :=
    List.cons_lt_cons_iff.2 (Or.inr ⟨by rw [hab], h⟩)
  by_cases hn₁ : n ≤ 127
  · by_cases hm₁ : m ≤ 127
    · simp only [hn₁, hm₁, if_true, List.cons_append]
      exact first hlt (by omega)
    by_cases hm₂ : m ≤ 2047
    · simp only [hn₁, hm₁, hm₂, if_true, if_false, List.cons_append]
      exact first (by omega) (by omega)
    by_cases hm₃ : m ≤ 65535
    · simp only [hn₁, hm₁, hm₂, hm₃, if_true, if_false, List.cons_append]
      exact first (by omega) (by omega)
    · simp only [hn₁, hm₁, hm₂, hm₃, if_true, if_false, List.cons_append]
      exact first (by omega) (by omega)
  have hm₁ : ¬ m ≤ 127 := by omega
  by_cases hn₂ : n ≤ 2047
  · by_cases hm₂ : m ≤ 2047
    · simp only [hn₁, hm₁, hn₂, hm₂, if_true, if_false, List.cons_append]
      by_cases h₁ : n / 64 % 32 < m / 64 % 32
      · exact first (by omega) (by omega)
      · exact next (by omega) (first (by omega) (by omega))
    by_cases hm₃ : m ≤ 65535
    · simp only [hn₁, hm₁, hn₂, hm₂, hm₃, if_true, if_false, List.cons_append]
      exact first (by omega) (by omega)
    · simp only [hn₁, hm₁, hn₂, hm₂, hm₃, if_true, if_false, List.cons_append]
      exact first (by omega) (by omega)
  have hm₂ : ¬ m ≤ 2047 := by omega
  by_cases hn₃ : n ≤ 65535
  · by_cases hm₃ : m ≤ 65535
    · simp only [hn₁, hm₁, hn₂, hm₂, hn₃, hm₃, if_true, if_false, List.cons_append]
      by_cases h₁ : n / 4096 % 16 < m / 4096 % 16
      · exact first (by omega) (by omega)
      refine next (by omega) ?_
      by_cases h₂ : n / 64 % 64 < m / 64 % 64
      · exact first (by omega) (by omega)
      · exact next (by omega) (first (by omega) (by omega))
    · simp only [hn₁, hm₁, hn₂, hm₂, hn₃, hm₃, if_true, if_false, List.cons_append]
      exact first (by omega) (by omega)
  have hm₃ : ¬ m ≤ 65535 := by omega
  simp only [hn₁, hm₁, hn₂, hm₂, hn₃, hm₃, if_false, List.cons_append]
  by_cases h₁ : n / 262144 % 8 < m / 262144 % 8
  · exact first (by omega) (by omega)
  have e₁ : n / 262144 = m / 262144 := by omega
  refine next (by omega) ?_
  by_cases h₂ : n / 4096 % 64 < m / 4096 % 64
  · exact first (by omega) (by omega)
  have e₂ : n / 4096 = m / 4096 := by omega
  refine next (by omega) ?_
  by_cases h₃ : n / 64 % 64 < m / 64 % 64
  · exact first (by omega) (by omega)
  have e₃ : n / 64 = m / 64 := by omega
  exact next (by omega) (first (by omega) (by omega))

/-- Texts are ordered as their bytes are. -/
theorem encode_lt_encode {s t : String} (h : s < t) : encode s < encode t := by
  rw [String.lt_iff] at h
  unfold encode
  generalize s.toList = cs at h
  generalize t.toList = ds at h
  induction cs generalizing ds with
  | nil =>
    cases ds with
    | nil => exact absurd h (List.not_lt_nil _)
    | cons d ds =>
      obtain ⟨b, bs, hb⟩ := List.exists_cons_of_ne_nil (String.utf8EncodeChar_ne_nil (c := d))
      rw [List.flatMap_nil, List.flatMap_cons, hb]
      exact List.nil_lt_cons _ _
  | cons c cs ih =>
    cases ds with
    | nil => exact absurd h (List.not_lt_nil _)
    | cons d ds =>
      rw [List.flatMap_cons, List.flatMap_cons]
      rcases List.cons_lt_cons_iff.1 h with hlt | ⟨rfl, hlt⟩
      · exact utf8EncodeChar_append_lt hlt _ _
      · exact List.append_left_lt (ih ds hlt)

end BootDisk.Text
