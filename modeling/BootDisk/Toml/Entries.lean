import BootDisk.Toml.Basic

/-!
# Adding to a table

A key may be written once, and a table may be opened once by its header, but a table that is only implied by longer keys or headers
can still grow. These functions add to a table under a path of keys, make the tables that are missing on the way, and refuse what
would define something twice.
-/

namespace BootDisk.Toml

namespace Entries

/-- The value of a key. -/
def find? (name : String) : Entries → Option Node
  | [] => none
  | (k, n) :: es => if k.name = name then some n else find? name es

/-- Gives a key that is there another value. -/
def replace (name : String) (n : Node) (es : Entries) : Entries :=
  es.map fun (k, m) => if k.name = name then (k, n) else (k, m)

/-- Takes a key away. -/
def erase (name : String) (es : Entries) : Entries :=
  es.filter fun (k, _) => k.name ≠ name

end Entries

/-- Changes the last of a list of tables. -/
def changeLast (f : Node → Option Node) : List Node → Option (List Node)
  | [] => none
  | [n] => (f n).map fun m => [m]
  | n :: m :: ns => (changeLast f (m :: ns)).map (n :: ·)

/-- Changes the entries of the table that a path of keys leads to. Under dotted keys a table that a header opened is closed; a list
of tables stands for its last table. -/
def changeAt (dotted : Bool) (change : Form → Entries → Option Entries) : List Key → Form → Entries → Option Entries
  | [], form, es => change form es
  | k :: path, _, es =>
    match es.find? k.name with
    | none =>
      let form := if dotted then Form.dotted else Form.implied
      (changeAt dotted change path form []).map fun sub => es ++ [(k, .table form sub none)]
    | some (.table form sub span) =>
      if form = .inline ∨ (dotted ∧ ¬ form.isImplicit) then none
      else (changeAt dotted change path form sub).map fun sub => es.replace k.name (.table form sub span)
    | some (.tables items span) =>
      (changeLast (fun n =>
        match n with
        | .table form sub own => (changeAt dotted change path form sub).map fun sub => .table form sub own
        | _ => none) items).map fun items => es.replace k.name (.tables items span)
    | some _ => none

/-- Adds a key with its value. Dotted keys end in a table that dotted keys made, and no key is there twice. -/
def addPair (es : Entries) (path : List Key) (key : Key) (value : Node) : Option Entries :=
  changeAt true (fun form es =>
    if (form = .dotted) = (path = []) then none
    else
      match es.find? key.name with
      | some _ => none
      | none => some (es ++ [(key, value)])) path .header es

end BootDisk.Toml
