import BootDisk.Digest.Hasher

/-!
# Digests in pieces are digests

A hasher that has taken pieces holds what their concatenation comes to: the state after its whole blocks, what is left behind them, and
its length (`Hasher.of`). So the digest of pieces is that of the bytes they are pieces of, however these were cut (`finish_ofPieces`); and
as text it is 64 digits.
-/

namespace BootDisk.Sha256

variable {s : State} {bs : List UInt8}

/-! ## Whole blocks -/

/-- Bytes are too few for a block. -/
theorem drop_eq_nil_iff : bs.drop 63 = [] ↔ bs.length < 64 := by
  rw [List.drop_eq_nil_iff]
  omega

theorem absorb_of_lt (s : State) (h : bs.length < 64) : absorb s bs = (s, bs) := by
  rw [absorb, dif_pos (drop_eq_nil_iff.2 h)]

theorem absorb_of_le (s : State) (h : 64 ≤ bs.length) : absorb s bs = absorb (compress s (bs.take 64)) (bs.drop 64) := by
  rw [absorb, dif_neg (fun hnil => Nat.not_lt.2 h (drop_eq_nil_iff.1 hnil))]

/-- What is worked in at once is worked in one part after the other. -/
theorem absorb_append (s : State) (bs cs : List UInt8) : absorb s (bs ++ cs) = absorb (absorb s bs).1 ((absorb s bs).2 ++ cs) := by
  fun_induction absorb s bs with
  | case1 s bs h => rfl
  | case2 s bs h ih =>
    have hlength : 64 ≤ bs.length := Nat.not_lt.1 fun hlt => h (drop_eq_nil_iff.2 hlt)
    rw [absorb_of_le s (by rw [List.length_append]; omega), List.take_append_of_le_length hlength, List.drop_append_of_le_length hlength]
    exact ih

/-- What is left behind the whole blocks is less than a block. -/
theorem length_absorb (s : State) (bs : List UInt8) : (absorb s bs).2.length = bs.length % 64 := by
  fun_induction absorb s bs with
  | case1 s bs h => exact (Nat.mod_eq_of_lt (drop_eq_nil_iff.1 h)).symm
  | case2 s bs h ih =>
    have hlength : 64 ≤ bs.length := Nat.not_lt.1 fun hlt => h (drop_eq_nil_iff.2 hlt)
    rw [ih, List.length_drop]
    omega

/-- To work bytes in is to compress the blocks that they start with. -/
theorem foldl_blocks (s : State) (bs : List UInt8) : (blocks bs).foldl compress s = (absorb s bs).1 := by
  fun_induction absorb s bs with
  | case1 s bs h => rw [blocks, dif_pos h, List.foldl_nil]
  | case2 s bs h ih => rw [blocks, dif_neg h, List.foldl_cons, ih]

/-! ## Pieces -/

namespace Hasher

/-- What a hasher holds when it has taken these bytes. -/
def of (bs : List UInt8) : Hasher :=
  ⟨(absorb initial bs).1, (absorb initial bs).2, bs.length⟩

theorem update_of (bs piece : List UInt8) : (of bs).update piece = of (bs ++ piece) := by
  simp only [update, of, absorb_append initial bs piece, List.length_append]

theorem foldl_update (pieces : List (List UInt8)) (bs : List UInt8) : pieces.foldl update (of bs) = of (bs ++ pieces.flatten) := by
  induction pieces generalizing bs with
  | nil => rw [List.foldl_nil, List.flatten_nil, List.append_nil]
  | cons piece pieces ih => rw [List.foldl_cons, update_of, ih, List.flatten_cons, List.append_assoc]

theorem of_nil : of [] = {} := by
  rw [of, absorb_of_lt initial (by decide)]
  rfl

/-- A hasher that has taken pieces holds what their concatenation comes to. -/
theorem ofPieces_eq (pieces : List (List UInt8)) : ofPieces pieces = of pieces.flatten := by
  rw [ofPieces, ← of_nil, foldl_update, List.nil_append]

/-- The digest of the bytes that were taken is made of what is held of them. -/
theorem finish_of (bs : List UInt8) : (of bs).finish = digest bs := by
  have hwaiting := length_absorb initial bs
  have hzeros : (if bs.length % 64 < 56 then 55 - bs.length % 64 else 119 - bs.length % 64) = paddingZeros bs.length := by
    rw [paddingZeros]
    split <;> omega
  rw [digest, foldl_blocks, padded, List.append_assoc, absorb_append initial bs, finish]
  simp only [of, hwaiting, hzeros, List.append_assoc]

/-- However a byte string is cut, the digest of the pieces is the digest of the string. -/
theorem finish_ofPieces (pieces : List (List UInt8)) : (ofPieces pieces).finish = digest pieces.flatten := by
  rw [ofPieces_eq, finish_of]

example : hexText (ofPieces ["a".toUTF8.toList, "bc".toUTF8.toList]).finish =
    "ba7816bf8f01cfea414140de5dae2223b00361a396177a9cb410ff61f20015ad" := by
  decide +kernel

end Hasher

theorem flatten_reads (bs : List UInt8) : (reads bs).flatten = bs := by
  fun_induction reads bs with
  | case1 => rfl
  | case2 bs h ih => rw [List.flatten_cons, ih, List.take_append_drop]

/-! ## The digest as text -/

theorem length_digest (bs : List UInt8) : (digest bs).length = 32 :=
  rfl

/-- A lowercase hexadecimal digit. -/
def isHexDigit (c : Char) : Bool :=
  c.isDigit || ('a' ≤ c && c ≤ 'f')

theorem isHexDigit_digitChar : ∀ n < 16, isHexDigit (Nat.digitChar n) = true := by
  decide

/-- Bytes are written as two digits each. -/
theorem hexText_digits (bytes : List UInt8) :
    (hexText bytes).toList.length = 2 * bytes.length ∧ ∀ c ∈ (hexText bytes).toList, isHexDigit c = true := by
  rw [hexText, String.toList_ofList]
  induction bytes with
  | nil => exact ⟨rfl, nofun⟩
  | cons b bytes ih =>
    obtain ⟨hlength, hdigits⟩ := ih
    have hb := b.toNat_lt
    refine ⟨?_, ?_⟩
    · rw [List.flatMap_cons, List.length_append, hlength, hexByte]
      simp only [List.length_cons, List.length_nil]
      omega
    · rw [List.flatMap_cons, hexByte]
      simp only [List.cons_append, List.nil_append, List.forall_mem_cons]
      exact ⟨isHexDigit_digitChar _ (by omega), isHexDigit_digitChar _ (by omega), hdigits⟩

end BootDisk.Sha256
