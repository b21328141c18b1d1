import BootDisk.Digest.Sha256

/-!
# Digests in pieces

The same digest, for bytes that come piece by piece. Whole blocks are worked in as soon as they are there; what is left of a piece waits
for the next one, and the end mark and the length are added when no more comes.
-/

namespace BootDisk.Sha256

/-- A digest on the way: the state after the whole blocks so far, the bytes that wait, and how many bytes there were in all. -/
structure Hasher where
  state : State := initial
  waiting : List UInt8 := []
  length : Nat := 0
  deriving Repr, Inhabited

/-- Works whole blocks into a state and gives back what is left. -/
def absorb (s : State) (bs : List UInt8) : State × List UInt8 :=
  if _h : bs.drop 63 = [] then (s, bs) else absorb (compress s (bs.take 64)) (bs.drop 64)
termination_by bs.length
decreasing_by
  have : 63 < bs.length := by simpa using _h
  simp only [List.length_drop]
  omega

namespace Hasher

/-- Takes one more piece. -/
def update (h : Hasher) (piece : List UInt8) : Hasher :=
  let (s, rest) := absorb h.state (h.waiting ++ piece)
  ⟨s, rest, h.length + piece.length⟩

/-- The digest, when no more comes. The end mark and the length take one more block, or two if the waiting bytes leave no room. -/
def finish (h : Hasher) : List UInt8 :=
  let zeros := if h.waiting.length < 56 then 55 - h.waiting.length else 119 - h.waiting.length
  (absorb h.state (h.waiting ++ 0x80 :: List.replicate zeros 0 ++ lengthBytes h.length)).1.bytes

/-- The digest of pieces, one after the other. -/
def ofPieces (pieces : List (List UInt8)) : Hasher :=
  pieces.foldl update {}

end Hasher

/-- The most that one read takes, in bytes. -/
def readSize : Nat := 65536

/-- The pieces in which a byte string is read when every read takes all it can. -/
def reads (bs : List UInt8) : List (List UInt8) :=
  if _h : bs = [] then [] else bs.take readSize :: reads (bs.drop readSize)
termination_by bs.length
decreasing_by
  have : 0 < bs.length := List.length_pos_iff.mpr _h
  simp only [List.length_drop, readSize]
  omega

end BootDisk.Sha256
