import BootDisk.Shell.Utility.Names

/-!
# Options of programs

What a program is given: options, which start with a dash and may stand anywhere, and operands. Letters stand together behind one
dash; a letter that takes a value has the rest of its word for it, or the next word. Two dashes start an option that is spelled out,
which may be cut short as long as it is the only one that starts so, with its value behind an equals sign; two dashes alone end the
options. The first word that does not fit is refused, and nothing is done.
-/

namespace BootDisk.Shell.Utility

/-- The options that a program knows: letters that stand alone, letters that take a value, and the letters that names stand for. -/
structure Known where
  alone : List Char
  valued : List Char
  spelled : List (String × Char)

/-- What a program was given. -/
structure Given where
  options : List (Char × Octets)
  operands : List Octets

namespace Given

/-- Puts options in front of those given. -/
def withOptions (os : List (Char × Octets)) (g : Given) : Given :=
  { g with options := os ++ g.options }

/-- Puts an operand in front of those given. -/
def withOperand (a : Octets) (g : Given) : Given :=
  { g with operands := a :: g.operands }

/-- Whether an option was given. -/
def has (g : Given) (c : Char) : Bool :=
  g.options.any fun o => o.1 == c

/-- The value that an option was given last. -/
def value? (g : Given) (c : Char) : Option Octets :=
  g.options.reverse.lookup c

end Given

/-- Why a word is refused. -/
inductive Misuse where
  | unknownLetter (c : Char)
  | unknownName (word : Octets)
  | ambiguousName (word : Octets) (names : List String)
  | letterLacksValue (c : Char)
  | nameLacksValue (name : String)
  | nameTakesNoValue (name : String)

/-- What is said about a refused word. -/
def Misuse.message : Misuse → Octets
  | unknownLetter c => ofText "invalid option -- '" ++ [c] ++ ['\'']
  | unknownName word => ofText "unrecognized option '" ++ word ++ ['\'']
  | ambiguousName word names =>
    ofText "option '" ++ word ++ ofText "' is ambiguous; possibilities:" ++ names.flatMap fun n => ofText s!" '--{n}'"
  | letterLacksValue c => ofText "option requires an argument -- '" ++ [c] ++ ['\'']
  | nameLacksValue name => ofText s!"option '--{name}' requires an argument"
  | nameTakesNoValue name => ofText s!"option '--{name}' doesn't allow an argument"

namespace Known

/-- The options in a word of letters, and one at its end that waits for its value. -/
def letters (k : Known) : Octets → Except Misuse (List (Char × Octets) × Option Char)
  | [] => .ok ([], none)
  | c :: cs =>
    if k.valued.contains c then .ok (if cs = [] then ([], some c) else ([(c, cs)], none))
    else if k.alone.contains c then (k.letters cs).map fun r => ((c, []) :: r.1, r.2)
    else .error (.unknownLetter c)

/-- The option that the name in a word stands for, which may be cut short. -/
def spelledAs (k : Known) (word name : Octets) : Except Misuse (String × Char) :=
  match k.spelled.find? fun s => ofText s.1 == name with
  | some s => .ok s
  | none =>
    let fits := k.spelled.filter fun s => name.isPrefixOf (ofText s.1)
    match fits with
    | [] => .error (.unknownName word)
    | [s] => .ok s
    | _ => .error (.ambiguousName word (fits.map Prod.fst))

/-- The options in a word that starts with two dashes, and one that waits for its value. -/
def named (k : Known) (word : Octets) : Except Misuse (List (Char × Octets) × Option (Char × Misuse)) := do
  let text := word.drop 2
  let s ← k.spelledAs word (text.takeWhile (· ≠ '='))
  match k.valued.contains s.2, text.dropWhile (· ≠ '=') with
  | true, [] => .ok ([], some (s.2, .nameLacksValue s.1))
  | true, _ :: value => .ok ([(s.2, value)], none)
  | false, [] => .ok ([(s.2, [])], none)
  | false, _ => .error (.nameTakesNoValue s.1)

/-- Sorts words into options and operands; an option may wait for its value, and is refused if there is none. -/
def sortFrom (k : Known) : Option (Char × Misuse) → List Octets → Except Misuse Given
  | none, [] => .ok ⟨[], []⟩
  | some (_, lack), [] => .error lack
  | some (c, _), a :: rest => (k.sortFrom none rest).map (Given.withOptions [(c, a)])
  | none, a :: rest =>
    match a with
    | ['-', '-'] => .ok ⟨[], rest⟩
    | '-' :: '-' :: _ => do
      let (os, waiting) ← k.named a
      (k.sortFrom waiting rest).map (Given.withOptions os)
    | '-' :: c :: cs => do
      let (os, waiting) ← k.letters (c :: cs)
      (k.sortFrom (waiting.map fun w => (w, .letterLacksValue w)) rest).map (Given.withOptions os)
    | _ => (k.sortFrom none rest).map (Given.withOperand a)

/-- Sorts the words that a program was given. -/
def sort (k : Known) (args : List Octets) : Except Misuse Given :=
  k.sortFrom none args

end Known

end BootDisk.Shell.Utility
