import Mathlib.Algebra.Group.Nat.Defs
import BootDisk.Proofs.Digest
import BootDisk.Proofs.FileTree.Writing
import BootDisk.Staging.Report

/-!
# The digest of what is read

A file comes in pieces, as many bytes at a time as each read happens to give. The loop that takes its digest (`Sha256.ReadsOn`) goes on until
a read gives nothing, so it need not end. Over a source of finitely many bytes it does (`Source.readsOn_of`), because every read before the
last leaves fewer of them; and it comes to the digest and the size of all the bytes, however the reads have split them
(`Sha256.digestsTo_exact`). The digest itself is told of the padded message, which is the shortest that is made of whole blocks
(`Sha256.padded_isPadding`).
-/

namespace BootDisk

namespace Sha256

variable {bs : List UInt8}

/-! ## The padded message -/

/-- The number that bytes tell, the highest first. -/
def bigEndian (bytes : List UInt8) : Nat :=
  bytes.foldl (fun n b => 256 * n + b.toNat) 0

/-- One byte string is another one as it is padded for its digest: an end mark, as few zeros as make the whole a multiple of a block, and in
eight bytes the length of the message in bits. -/
structure IsPadding (message padded : List UInt8) : Prop where
  shape : ∃ zeros tail, padded = message ++ 0x80 :: List.replicate zeros 0 ++ tail ∧ tail.length = 8 ∧
    (message.length < 2 ^ 61 → bigEndian tail = 8 * message.length) ∧
    ∀ fewer < zeros, (message.length + 1 + fewer + 8) % 64 ≠ 0
  whole : padded.length % 64 = 0

theorem length_lengthBytes (n : Nat) : (lengthBytes n).length = 8 :=
  rfl

/-- A number with eight more bits is the one without them, and the byte of them behind it. -/
theorem byte_behind (n k : Nat) : 256 * (n / 2 ^ (k + 8)) + n / 2 ^ k % 256 = n / 2 ^ k := by
  rw [Nat.pow_add, ← Nat.div_div_eq_div_mul]
  exact Nat.div_add_mod _ 256

theorem toNat_byte (bits k : UInt64) : (bits >>> k).toUInt8.toNat = bits.toNat / 2 ^ (k.toNat % 64) % 256 := by
  rw [UInt64.toNat_toUInt8, UInt64.toNat_shiftRight, Nat.shiftRight_eq_div_pow]

/-- The bytes of a word up to one of them, from the bytes before it. -/
theorem bytes_behind (bits k k' : UInt64) (h : k.toNat % 64 = k'.toNat % 64 + 8) :
    256 * (bits.toNat / 2 ^ (k.toNat % 64)) + (bits >>> k').toUInt8.toNat = bits.toNat / 2 ^ (k'.toNat % 64) := by
  rw [toNat_byte, h, byte_behind]

/-- A word is told by its eight bytes. -/
theorem bigEndian_lengthBytes {n : Nat} (h : n < 2 ^ 61) : bigEndian (lengthBytes n) = 8 * n := by
  have hlt : 8 * n < 2 ^ 64 := by omega
  have hbits : (UInt64.ofNat (8 * n)).toNat = 8 * n := UInt64.toNat_ofNat_of_lt' hlt
  have hfirst : 256 * 0 + (UInt64.ofNat (8 * n) >>> 56).toUInt8.toNat = (UInt64.ofNat (8 * n)).toNat / 2 ^ ((56 : UInt64).toNat % 64) := by
    rw [toNat_byte, Nat.mul_zero, Nat.zero_add]
    exact Nat.mod_eq_of_lt (Nat.div_lt_of_lt_mul (UInt64.toNat_lt _))
  have hlast : 256 * ((UInt64.ofNat (8 * n)).toNat / 2 ^ ((8 : UInt64).toNat % 64)) + (UInt64.ofNat (8 * n)).toUInt8.toNat = 8 * n := by
    rw [UInt64.toNat_toUInt8, hbits]
    exact Nat.div_add_mod _ 256
  rw [bigEndian, lengthBytes]
  simp only [List.map_cons, List.map_nil, List.foldl_cons, List.foldl_nil]
  rw [hfirst, bytes_behind _ 56 48 rfl, bytes_behind _ 48 40 rfl, bytes_behind _ 40 32 rfl, bytes_behind _ 32 24 rfl,
    bytes_behind _ 24 16 rfl, bytes_behind _ 16 8 rfl]
  exact hlast

theorem length_padded (message : List UInt8) :
    (padded message).length = message.length + 1 + paddingZeros message.length + 8 := by
  rw [padded, List.length_append, List.length_append, List.length_cons, List.length_replicate, length_lengthBytes]
  omega

/-- A message is padded as it should be. -/
theorem padded_isPadding (message : List UInt8) : IsPadding message (padded message) := by
  refine ⟨⟨paddingZeros message.length, lengthBytes message.length, rfl, rfl, bigEndian_lengthBytes, fun fewer h => ?_⟩, ?_⟩
  · rw [paddingZeros] at h
    omega
  · rw [length_padded, paddingZeros]
    omega

/-- Bytes that are whole blocks are cut into blocks with nothing left. -/
theorem blocks_whole (h : bs.length % 64 = 0) : (blocks bs).flatten = bs ∧ ∀ b ∈ blocks bs, b.length = 64 := by
  fun_induction blocks bs with
  | case1 bs hfew =>
    have hlength := drop_eq_nil_iff.1 hfew
    obtain rfl : bs = [] := List.length_eq_zero_iff.1 (by omega)
    exact ⟨rfl, nofun⟩
  | case2 bs hmany ih =>
    have hlength : 64 ≤ bs.length := Nat.not_lt.1 fun hlt => hmany (drop_eq_nil_iff.2 hlt)
    obtain ⟨hflatten, hall⟩ := ih (by rw [List.length_drop]; omega)
    refine ⟨by rw [List.flatten_cons, hflatten, List.take_append_drop], List.forall_mem_cons.2 ⟨?_, hall⟩⟩
    rw [List.length_take, Nat.min_eq_left hlength]

/-! ## The loop -/

/-- A run of the loop, with the result that it ends with. It reads until a read gives nothing, and then tells the digest of all that came, as
text, and in a word how many bytes there were. A read that fails ends it too. Where there is always more to come it does not end. -/
inductive ReadsOn {σ : Type} (read : σ → Except IoError (List UInt8 × σ)) :
    σ → Hasher → UInt64 → Except IoError (String × UInt64) → Prop where
  | fail {s : σ} {h : Hasher} {size : UInt64} {e : IoError} : read s = .error e → ReadsOn read s h size (.error e)
  | stop {s s' : σ} {h : Hasher} {size : UInt64} : read s = .ok ([], s') → ReadsOn read s h size (.ok (hexText h.finish, size))
  | more {s s' : σ} {h : Hasher} {size : UInt64} {piece : List UInt8} {r : Except IoError (String × UInt64)} :
      read s = .ok (piece, s') → piece ≠ [] → ReadsOn read s' (h.update piece) (size + UInt64.ofNat piece.length) r →
      ReadsOn read s h size r

/-- The loop ends with one result at most. -/
theorem ReadsOn.unique {σ : Type} {read : σ → Except IoError (List UInt8 × σ)} {s : σ} {h : Hasher} {size : UInt64}
    {r r' : Except IoError (String × UInt64)} (hr : ReadsOn read s h size r) (hr' : ReadsOn read s h size r') : r = r' := by
  induction hr with
  | fail hread =>
    cases hr' with
    | fail hread' => cases hread.symm.trans hread'; rfl
    | stop hread' => cases hread.symm.trans hread'
    | more hread' _ _ => cases hread.symm.trans hread'
  | stop hread =>
    cases hr' with
    | fail hread' => cases hread.symm.trans hread'
    | stop _ => rfl
    | more hread' hne _ =>
      cases hread.symm.trans hread'
      exact absurd rfl hne
  | more hread hne _ ih =>
    cases hr' with
    | fail hread' => cases hread.symm.trans hread'
    | stop hread' =>
      cases hread.symm.trans hread'
      exact absurd rfl hne
    | more hread' _ hrest' =>
      cases hread.symm.trans hread'
      exact ih hrest'

/-- A source of finitely many bytes: what is left of them, and what the next read gives. A read takes a piece from their front, no longer than
a read can take, and an empty one only where nothing is left. -/
structure Source (σ : Type) where
  left : σ → List UInt8
  read : σ → List UInt8 × σ
  left_eq (s : σ) : left s = (read s).1 ++ left (read s).2
  length_le (s : σ) : (read s).1.length ≤ readSize
  left_of_nil (s : σ) : (read s).1 = [] → left s = []

namespace Source

variable {σ : Type}

/-- The loop over a source, from its start, ends with a result. -/
def DigestsTo (src : Source σ) (s : σ) (r : Except IoError (String × UInt64)) : Prop :=
  ReadsOn (fun s => .ok (src.read s)) s {} 0 r

/-- The source that gives the pieces of a list, one by one. -/
def ofPieces : Source { pieces : List (List UInt8) // ∀ p ∈ pieces, p ≠ [] ∧ p.length ≤ readSize } where
  left s := s.1.flatten
  read
    | ⟨[], h⟩ => ([], ⟨[], h⟩)
    | ⟨p :: rest, h⟩ => (p, ⟨rest, fun q hq => h q (List.mem_cons_of_mem p hq)⟩)
  left_eq
    | ⟨[], _⟩ => rfl
    | ⟨_ :: _, _⟩ => rfl
  length_le
    | ⟨[], _⟩ => Nat.zero_le _
    | ⟨p :: _, h⟩ => (h p List.mem_cons_self).2
  left_of_nil
    | ⟨[], _⟩ => fun _ => rfl
    | ⟨p :: _, h⟩ => fun hp => absurd hp (h p List.mem_cons_self).1

/-- After bytes that came already, the loop comes to the digest and the size of those and of all that is left. The induction is on how many
are left. -/
theorem readsOn_of (src : Source σ) (s : σ) (front : List UInt8) :
    ReadsOn (fun s => .ok (src.read s)) s (.of front) (UInt64.ofNat front.length)
      (.ok (hexText (digest (front ++ src.left s)), UInt64.ofNat (front ++ src.left s).length)) := by
  induction hn : (src.left s).length using Nat.strongRecOn generalizing s front with
  | _ n ih =>
    have hsplit := src.left_eq s
    by_cases hnil : (src.read s).1 = []
    · rw [src.left_of_nil s hnil, List.append_nil, ← Hasher.finish_of]
      exact .stop (congrArg Except.ok (Prod.ext hnil rfl))
    · have hpos : 0 < (src.read s).1.length := List.length_pos_iff.2 hnil
      have hless : (src.left (src.read s).2).length < n := by
        rw [← hn, hsplit, List.length_append]
        omega
      have hrest := ih _ hless (src.read s).2 (front ++ (src.read s).1) rfl
      rw [List.append_assoc, ← hsplit, ← Hasher.update_of, List.length_append, UInt64.ofNat_add] at hrest
      exact .more rfl hnil hrest

theorem digestsTo_iff (src : Source σ) (s : σ) (r : Except IoError (String × UInt64)) :
    src.DigestsTo s r ↔ r = .ok (hexText (digest (src.left s)), UInt64.ofNat (src.left s).length) := by
  have hstart : src.DigestsTo s (.ok (hexText (digest (src.left s)), UInt64.ofNat (src.left s).length)) := by
    have hends := src.readsOn_of s []
    rwa [Hasher.of_nil, List.nil_append] at hends
  exact ⟨fun h => h.unique hstart, fun h => h ▸ hstart⟩

end Source

end Sha256

namespace Manifest

/-- The entry for a program whose file can be read to its end has the digest and the size of all that is read. -/
theorem entryFor_of_readAll {i : Installed} {m : Machine} {c : Content} (h : m.tree.readAll m.cwd i.path = .ok c) :
    entryFor i m =
      .ok ⟨i.name, i.path, UInt64.ofNat c.toList.length, Sha256.hexText (Sha256.digest c.toList)⟩ m := by
  obtain ⟨n, hn, hc⟩ := ExceptAux.bind_eq_ok.1 h
  have hmeasure : measure i.path m = .ok (.of c.toList) m := by
    refine (bind_of_ok (during_eq_ok.2 (Act.look_of_ok hn))).trans ((bind_of_ok (Act.look_of_ok hc)).trans ?_)
    rw [Sha256.Hasher.ofPieces_eq, Sha256.flatten_reads]
    rfl
  refine (bind_of_ok hmeasure).trans ?_
  rw [Sha256.Hasher.finish_of]
  rfl

end Manifest

namespace Sha256

/-- However the reads split a byte string, the loop over them ends, with the digest of the whole string in 64 lowercase digits, and with its
size, which is exact for every file that there can be. The digest is that of the padded message, worked block by block with nothing left
over. It is also what is put on record of a file with these bytes. -/
theorem digestsTo_exact (bs : List UInt8) :
    (∀ (σ : Type) (src : Source σ) (s : σ), src.left s = bs →
      ∀ r, src.DigestsTo s r ↔ r = .ok (hexText (digest bs), UInt64.ofNat bs.length)) ∧
    (∀ (pieces : List (List UInt8)) (h : ∀ p ∈ pieces, p ≠ [] ∧ p.length ≤ 65536), pieces.flatten = bs →
      ∀ r, Source.ofPieces.DigestsTo ⟨pieces, h⟩ r ↔ r = .ok (hexText (digest bs), UInt64.ofNat bs.length)) ∧
    ((hexText (digest bs)).toList.length = 64 ∧ ∀ c ∈ (hexText (digest bs)).toList, isHexDigit c = true) ∧
    (bs.length < 2 ^ 63 → (UInt64.ofNat bs.length).toNat = bs.length) ∧
    (IsPadding bs (padded bs) ∧ digest bs = ((blocks (padded bs)).foldl compress initial).bytes ∧
      (blocks (padded bs)).flatten = padded bs ∧ ∀ b ∈ blocks (padded bs), b.length = 64) ∧
    ∀ (i : Installed) (m : Machine) (c : Content), m.tree.readAll m.cwd i.path = .ok c → c.toList = bs →
      Manifest.entryFor i m = .ok ⟨i.name, i.path, UInt64.ofNat bs.length, hexText (digest bs)⟩ m := by
  have hall (σ : Type) (src : Source σ) (s : σ) (hs : src.left s = bs) (r : Except IoError (String × UInt64)) :
      src.DigestsTo s r ↔ r = .ok (hexText (digest bs), UInt64.ofNat bs.length) := by
    rw [src.digestsTo_iff, hs]
  have hpadding := padded_isPadding bs
  refine ⟨hall, fun pieces h hbs => hall _ Source.ofPieces ⟨pieces, h⟩ hbs, hexText_digits (digest bs), fun hlength => ?_,
    ⟨hpadding, rfl, blocks_whole hpadding.whole⟩, ?_⟩
  · exact UInt64.toNat_ofNat_of_lt' (Nat.lt_trans hlength (by decide))
  · rintro i m c hread rfl
    exact Manifest.entryFor_of_readAll hread

/-- A block of equal bytes. -/
def sampleBlock : List UInt8 :=
  List.replicate 64 97

/-- A machine where a program of one block is installed. -/
def sampleInstalled : Machine where
  tree := ⟨[(["a"], .file ⟨.ofList sampleBlock, newFileMode, 0⟩)]⟩
  cwd := []
  searchPath := ""
  home := ⟨""⟩
  clock := 0

/-- A block that is read in one piece and one more byte, or in two pieces of which the first would be the longest that is padded in one block:
it is the same digest, that which is put on record. -/
theorem digestsTo_exact_sampleBlock :
    ∃ h h', Source.ofPieces.DigestsTo ⟨[List.replicate 63 97, [97]], h⟩
        (.ok ("ffe054fe7ae0cb6dc65c3af9b61d5209f439851db43d0ba5997337df154668eb", 64)) ∧
      Source.ofPieces.DigestsTo ⟨[List.replicate 55 97, List.replicate 9 97], h'⟩
        (.ok ("ffe054fe7ae0cb6dc65c3af9b61d5209f439851db43d0ba5997337df154668eb", 64)) ∧
      sampleBlock.length < 2 ^ 63 ∧
      Manifest.entryFor ⟨"a", ⟨"/a"⟩⟩ sampleInstalled =
        .ok ⟨"a", ⟨"/a"⟩, 64, "ffe054fe7ae0cb6dc65c3af9b61d5209f439851db43d0ba5997337df154668eb"⟩ sampleInstalled := by
  have hdigest : hexText (digest sampleBlock) = "ffe054fe7ae0cb6dc65c3af9b61d5209f439851db43d0ba5997337df154668eb" := by decide +kernel
  have hread : sampleInstalled.tree.readAll sampleInstalled.cwd ⟨"/a"⟩ = .ok (.ofList sampleBlock) :=
    ExceptAux.toOption_eq_some.1 (by decide +kernel)
  obtain ⟨-, hpieces, -, -, -, hentry⟩ := digestsTo_exact sampleBlock
  rw [hdigest] at hpieces hentry
  exact ⟨by decide, by decide, (hpieces _ _ (by decide) _).2 rfl, (hpieces _ _ (by decide) _).2 rfl, by decide,
    hentry _ _ _ hread (Content.toList_ofList _)⟩

end Sha256

end BootDisk
