/-!
# The bytes of a file

A file's bytes are a stored part followed by a hole that reads as zeros, so that a container of any size is as small as what was
written into it. What counts is the byte string, `Content.toList`; every operation is told by what it does to that string.
-/

namespace BootDisk

/-- The bytes of a file: `stored`, then `hole` zeros. -/
structure Content where
  stored : List UInt8
  hole : Nat
  deriving DecidableEq, Repr, Inhabited

namespace Content

/-- The byte string. -/
def toList (c : Content) : List UInt8 :=
  c.stored ++ List.replicate c.hole 0

/-- How many bytes there are. -/
def length (c : Content) : Nat :=
  c.stored.length + c.hole

/-- A file that holds these bytes. -/
def ofList (bytes : List UInt8) : Content :=
  ⟨bytes, 0⟩

/-- The empty file. -/
def empty : Content :=
  ⟨[], 0⟩

/-- A file of `n` zeros, none of them stored. -/
def zeros (n : Nat) : Content :=
  ⟨[], n⟩

/-- One byte string after the other. -/
def append (a b : Content) : Content :=
  if b.stored = [] then ⟨a.stored, a.hole + b.hole⟩ else ⟨a.stored ++ List.replicate a.hole 0 ++ b.stored, b.hole⟩

/-- The bytes from offset `n` on. -/
def drop (n : Nat) (c : Content) : Content :=
  ⟨c.stored.drop n, c.hole - (n - c.stored.length)⟩

/-- The first `n` bytes. -/
def take (n : Nat) (c : Content) : Content :=
  ⟨c.stored.take n, min c.hole (n - c.stored.length)⟩

/-- The bytes after `new` was written over the start of `old`. -/
def overwrite (new old : Content) : Content :=
  new.append (old.drop new.length)

/-- Whether two contents are the same byte string, whatever part of it is stored. -/
def same (a b : Content) : Bool :=
  a.length == b.length && go a.stored b.stored
where
  /-- Compares stored parts; past the end of one of them the other must hold zeros. -/
  go : List UInt8 → List UInt8 → Bool
    | [], ys => ys.all (· == 0)
    | xs, [] => xs.all (· == 0)
    | x :: xs, y :: ys => x == y && go xs ys

@[simp] theorem length_toList (c : Content) : c.toList.length = c.length := by
  simp [toList, length]

@[simp] theorem toList_ofList (bytes : List UInt8) : (ofList bytes).toList = bytes := by
  simp [toList, ofList]

@[simp] theorem toList_empty : empty.toList = [] := rfl

@[simp] theorem toList_zeros (n : Nat) : (zeros n).toList = List.replicate n 0 := by
  simp [toList, zeros]

@[simp] theorem toList_append (a b : Content) : (a.append b).toList = a.toList ++ b.toList := by
  unfold append
  split
  · next h => simp [toList, h]
  · simp [toList]

@[simp] theorem toList_drop (n : Nat) (c : Content) : (c.drop n).toList = c.toList.drop n := by
  simp [toList, drop, List.drop_append]

@[simp] theorem toList_take (n : Nat) (c : Content) : (c.take n).toList = c.toList.take n := by
  simp [toList, take, List.take_append, Nat.min_comm]

/-- Writing over the start keeps every byte behind it. -/
@[simp] theorem toList_overwrite (new old : Content) :
    (new.overwrite old).toList = new.toList ++ old.toList.drop new.length := by
  simp [overwrite]

/-- Writing over the start keeps the length, if there is room. -/
theorem length_overwrite {new old : Content} (h : new.length ≤ old.length) : (new.overwrite old).length = old.length := by
  rw [← length_toList, toList_overwrite, List.length_append, List.length_drop, length_toList, length_toList]
  omega

/-- Bytes that are written over themselves stay. -/
theorem toList_overwrite_self (c : Content) : (c.overwrite c).toList = c.toList := by
  rw [toList_overwrite, ← length_toList, List.drop_length, List.append_nil]

end Content

end BootDisk
