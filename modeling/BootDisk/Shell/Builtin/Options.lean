import BootDisk.Shell.Process

/-!
# Options and arguments

The options that the commands of the shell take, the options of the shell itself, and the search for options among the arguments of a
script.
-/

namespace BootDisk.Shell

/-! ## Options of commands -/

/-- The options that arguments begin with, each with the value it was given, and the arguments behind them. -/
structure GivenOptions where
  letters : List (Char × Octets)
  args : List Octets
  deriving Repr, Inhabited

namespace GivenOptions

/-- Whether an option was given. -/
def has (g : GivenOptions) (c : Char) : Bool :=
  g.letters.any fun l => l.1 == c

/-- The value that was given last to an option. -/
def value? (g : GivenOptions) (c : Char) : Option Octets :=
  g.letters.reverse.lookup c

/-- Reads options, of which those are known that are told with whether they take a value; the letters of the argument at hand come first.
At most so many letters and arguments are looked at. -/
def read (known : List (Char × Bool)) : Nat → Octets → List Octets → Sh GivenOptions
  | 0, _, args => return ⟨[], args⟩
  | n + 1, [], args =>
    match args with
    | ['-', '-'] :: args => return ⟨[], args⟩
    | ('-' :: c :: cs) :: args => read known n (c :: cs) args
    | args => return ⟨[], args⟩
  | n + 1, c :: cs, args => do
    match known.lookup c with
    | none => Sh.fault (ofText "Illegal option -" ++ [c])
    | some false =>
      let g ← read known n cs args
      return ⟨(c, []) :: g.letters, g.args⟩
    | some true =>
      match cs, args with
      | [], [] => Sh.fault (ofText "No arg for -" ++ c :: ofText " option")
      | [], v :: args =>
        let g ← read known n [] args
        return ⟨(c, v) :: g.letters, g.args⟩
      | v, args =>
        let g ← read known n [] args
        return ⟨(c, v) :: g.letters, g.args⟩

end GivenOptions

/-- How many letters and arguments there are. -/
def lettersOf (args : List Octets) : Nat :=
  args.foldl (fun n a => n + a.length + 1) 0

/-- The options that arguments begin with. -/
def givenOptions (known : List (Char × Bool)) (args : List Octets) : Sh GivenOptions :=
  GivenOptions.read known (lettersOf args + 1) [] args

/-- The arguments of a command that takes no options. -/
def withoutOptions (args : List Octets) : Sh (List Octets) := do
  return (← givenOptions [] args).args

/-! ## Options of the shell -/

namespace Options

/-- Sets an option, or takes it back. -/
def change (o : ShellOption) (on : Bool) : Sh Unit :=
  modify fun p =>
    let others := p.options.filter (· ≠ o)
    { p with options := if on then o :: others else others }

/-- Sets the option of a letter, or takes it back. The two ways of editing exclude each other. -/
def changeLetter (c : Char) (on : Bool) : Sh Unit := do
  match ShellOption.ofLetter? c with
  | none => Sh.fault (ofText "Illegal option -" ++ [c])
  | some o =>
    change o on
    if on ∧ o = .vi then change .emacs false
    if on ∧ o = .emacs then change .vi false

/-- A name filled up to the column behind it. -/
def column (os : Octets) : Octets :=
  os ++ List.replicate (16 - os.length) ' '

/-- Shows all options, as a table or as commands that set them. -/
def showAll (asTable : Bool) : Sh Unit := do
  let p ← get
  if asTable then Sh.sayLine (ofText "Current option settings")
  ShellOption.all.forM fun (o, name, _) =>
    let on := p.has o
    Sh.sayLine
      (if asTable then column (ofText name) ++ ofText (if on then "on" else "off")
      else ofText (if on then "set -o " else "set +o ") ++ ofText name)

/-- Sets the option of a name, or takes it back; shows all if there is no name. -/
def changeNamed (name : Option Octets) (on : Bool) : Sh Unit := do
  match name with
  | none => showAll on
  | some name =>
    match ShellOption.ofName? name with
    | some o => change o on
    | none => Sh.fault (ofText "Illegal option -o " ++ name)

/-- Sets the arguments of the script. -/
def setArguments (args : List Octets) : Sh Unit :=
  modify fun p => { p with args := args, optionPlace := {} }

/-- What is to come behind options: the arguments that are left, and whether a command is among them. -/
structure Remaining where
  args : List Octets
  hasCommand : Bool := false
  deriving Repr, Inhabited

/-- Works through options, the letters of the argument at hand first; `starting` is said when the shell is started with them. At most so
many letters and arguments are looked at. -/
def work (starting : Bool) : Nat → Bool → Octets → Remaining → Sh Remaining
  | 0, _, _, r => return r
  | n + 1, _, [], r =>
    match r.args with
    | ['-'] :: args => do
      if !starting then
        change .xtrace false
        change .verbose false
      return { r with args := args }
    | ['-', '-'] :: args => do
      if !starting ∧ args = [] then setArguments []
      return { r with args := args }
    | ('-' :: c :: cs) :: args => work starting n true (c :: cs) { r with args := args }
    | ('+' :: cs) :: args => work starting n false cs { r with args := args }
    | _ => return r
  | n + 1, on, c :: cs, r => do
    if starting ∧ c = 'c' then work starting n on cs { r with hasCommand := true }
    else if starting ∧ c = 'l' then work starting n on cs r
    else if c = 'o' then
      changeNamed r.args.head? on
      work starting n on cs { r with args := r.args.tail }
    else
      changeLetter c on
      work starting n on cs r

/-- Works through the options that arguments begin with. -/
def ofArguments (starting : Bool) (args : List Octets) : Sh Remaining :=
  work starting (2 * lettersOf args + 2) true [] ⟨args, false⟩

end Options

/-- Drops arguments of the script. -/
def shift (args : List Octets) : Sh Nat := do
  let n ← match args with
    | [] => pure 1
    | a :: _ => Sh.number a
  let p ← get
  if p.args.length < n then Sh.fault (ofText "can't shift that many")
  Options.setArguments (p.args.drop n)
  return 0

/-! ## The search for options -/

namespace Getopts

/-- Whether an option is wanted, and whether it takes a value. -/
def wanted? : Octets → Char → Option Bool
  | [], _ => none
  | [q], c => if q = c then some false else none
  | q :: r :: rest, c => if q = c then some (r == ':') else if r = ':' then wanted? rest c else wanted? (r :: rest) c

/-- The letters that are left of the argument before the place. -/
def lettersLeft (place : OptionPlace) (args : List Octets) : Octets :=
  match place.letter with
  | none => []
  | some n =>
    if place.argument ≤ 1 then []
    else
      let word := (args[place.argument - 2]?).getD []
      if word.length < n then [] else word.drop n

/-- What one step finds: the letter to tell, if the search goes on, and the letters left of the argument before the new place. -/
structure Step where
  found : Option Char
  argument : Nat
  left : Option Octets

/-- Sets the variable that a value is told in. -/
def tell (value : Option Octets) : Sh Unit :=
  match value with
  | some v => Sh.setVariable "OPTARG".toList v false
  | none => Sh.unsetVariable "OPTARG".toList

/-- Complains, or tells the letter, as the script asked for. -/
def misfit (quiet : Bool) (c : Char) (text : Octets) : Sh Unit := do
  if quiet then tell (some [c])
  else
    Sh.complain text
    tell none

/-- Takes the next option. -/
def take (spec : Octets) (args : List Octets) (argument : Nat) (letters : Octets) : Sh Step := do
  let quiet := spec.head? = some ':'
  match letters with
  | [] => return ⟨none, argument, none⟩
  | c :: left =>
    match wanted? spec c with
    | none =>
      misfit quiet c (ofText "Illegal option -" ++ [c])
      return ⟨some '?', argument, some left⟩
    | some false =>
      tell (some [])
      return ⟨some c, argument, some left⟩
    | some true =>
      if left ≠ [] then
        tell (some left)
        return ⟨some c, argument, none⟩
      else
        match args[argument - 1]? with
        | some v =>
          tell (some v)
          return ⟨some c, argument + 1, none⟩
        | none =>
          misfit quiet c (ofText "No arg for -" ++ c :: ofText " option")
          return ⟨some (if quiet then ':' else '?'), argument, none⟩

/-- Finds the next option: in what is left of an argument, or in the next one. -/
def step (spec : Octets) (args : List Octets) (place : OptionPlace) : Sh Step := do
  match lettersLeft place args with
  | [] =>
    match args[place.argument - 1]? with
    | some ['-', '-'] => return ⟨none, place.argument + 1, none⟩
    | some ('-' :: c :: cs) => take spec args (place.argument + 1) (c :: cs)
    | _ => return ⟨none, place.argument, none⟩
  | letters => take spec args place.argument letters

end Getopts

/-- Looks for the next option among arguments, and tells it in variables. -/
def getopts (args : List Octets) : Sh Nat := do
  match ← withoutOptions args with
  | spec :: name :: given =>
    let p ← get
    let args := if given = [] then p.args else given
    let place : OptionPlace := if args.length + 1 < p.optionPlace.argument then {} else p.optionPlace
    let s ← Getopts.step spec args place
    Sh.setVariable "OPTIND".toList (ofNat s.argument) false
    Sh.assign name [s.found.getD '?']
    let word := (args[s.argument - 2]?).getD []
    let letter := s.left.map fun left => word.length - left.length
    modify fun p => { p with optionPlace := ⟨s.argument, letter⟩ }
    return if s.found.isSome then 0 else 1
  | _ => Sh.fault (ofText "Usage: getopts optstring var [arg...]")

end BootDisk.Shell
