import BootDisk.Shell.Image
import BootDisk.Shell.Running.Children

/-!
# Running programs

How the program of a name is started, in a process of its own or in the place of the shell, and what the shell tells about where a command
of a name comes from.
-/

namespace BootDisk.Shell

namespace Running

/-- Starts the first of some paths that can be started as a program, in the place of the process at hand. A file that has no mark of a
program is taken for a script if it may be one. -/
def launch (lv : Level) (name : Octets) (args : List Octets) : OsError → List Octets → Sh (Except OsError Status)
  | last, [] => return .error last
  | last, path :: paths => do
    match ← lv.execute ⟨toText path⟩ name args with
    | .ok s => return .ok s
    | .error .badExecutable =>
      let p ← get
      if Image.mayBeScript p.tree p.cwd ⟨toText path⟩ then lv.execute ⟨"/bin/sh"⟩ (ofText "/bin/sh") (path :: args)
      else launch lv name args .badExecutable paths
    | .error e => launch lv name args (if Search.isMissing e then last else e) paths

/-- Has a program take the place of the process at hand. -/
def replace {α : Type} (lv : Level) (name : Octets) (args paths : List Octets) : Sh α := do
  match ← launch lv name args .noEntry paths with
  | .ok s => throw (.replaced s)
  | .error e =>
    Sh.warn (name ++ ofText ": " ++ ofText (Search.words e))
    throw (.exit (Search.code e))

/-- The paths that the program of a name can be at. -/
def pathsOf (path name : Octets) : List Octets :=
  if name.contains '/' then [name] else Search.candidates path name

/-- Runs the program of a name, which is looked for along the usual search path if asked to. -/
def external (lv : Level) (stance : Stance) (usual : Bool) (name : Octets) (args : List Octets) : Sh Nat := do
  let p ← get
  let path := if usual then Search.usualPath else Search.path p
  let found ←
    if name.contains '/' then pure (.ok 0)
    else if usual then pure (Search.find p path name)
    else Search.remembering name
  match found with
  | .error e =>
    Sh.warn (name ++ ofText ": " ++ ofText (Search.words e))
    return 127
  | .ok index =>
    let paths := (pathsOf path name).drop index
    if stance.isLast && !p.hasTraps then replace lv name args paths
    else awaited (← inChild (whole lv (replace lv name args paths)))

/-! ## Where a command comes from -/

/-- What a name stands for: a word or a command of the shell, an alias, a function, or the program at a path, which may have been known
before. -/
inductive Meaning where
  | keyword
  | shorthand (value : Octets)
  | function
  | builtin (isSpecial : Bool)
  | program (path : Octets) (isKnown : Bool)
  deriving DecidableEq, Repr, Inhabited

namespace Meaning

/-- What a name stands for, in words. -/
def inWords (name : Octets) : Meaning → Octets
  | keyword => name ++ ofText " is a shell keyword"
  | shorthand value => name ++ ofText " is an alias for " ++ value
  | function => name ++ ofText " is a shell function"
  | builtin isSpecial => name ++ ofText (if isSpecial then " is a special shell builtin" else " is a shell builtin")
  | program path isKnown => name ++ ofText (if isKnown then " is a tracked alias for " else " is ") ++ path

/-- What can be written for a name. -/
def instead (name : Octets) : Meaning → Octets
  | shorthand value => ofText "alias " ++ name ++ '=' :: quoted value
  | program path _ => path
  | _ => name

end Meaning

/-- What a name stands for, if anything. Where its program is will be remembered. -/
def meaning (usual : Bool) (name : Octets) : Sh (Option Meaning) := do
  let p ← get
  if Token.keywords.any fun k => k.toList == name then return some .keyword
  else if let some value := p.aliases.lookup name then return some (.shorthand value)
  else if (p.functions.lookup name).isSome then return some .function
  else if isBuiltin name then return some (.builtin (isSpecial name))
  else if name.contains '/' then return if (p.tree.stat p.cwd ⟨toText name⟩).isOk then some (.program name false) else none
  else
    let path := if usual then Search.usualPath else Search.path p
    let isKnown := !usual && p.hashed.any fun h => h.name == name
    match ← if usual then pure (Search.find p path name) else Search.remembering name with
    | .ok index => return some (.program ((Search.candidates path name)[index]?.getD name) isKnown)
    | .error _ => return none

/-- Tells what a name stands for. -/
def tellMeaning (usual inWords : Bool) (name : Octets) : Sh Nat := do
  match ← meaning usual name with
  | some m =>
    Sh.sayLine (if inWords then m.inWords name else m.instead name)
    return 0
  | none =>
    if inWords then Sh.sayLine (name ++ ofText ": not found")
    return 127

/-- Tells what names stand for. -/
def type (args : List Octets) : Sh Nat := do
  let codes ← (← withoutOptions args).mapM (tellMeaning false true)
  return codes.foldl Nat.lor 0

/-- Looks for programs to be remembered, forgets them, or lists them. -/
def hash (args : List Octets) : Sh Nat := do
  let g ← givenOptions [('r', false)] args
  if g.has 'r' then
    modify fun p => { p with hashed := [] }
    return 0
  else if g.args = [] then
    (Search.listing (← get)).forM Sh.sayLine
    return 0
  else
    let codes ← g.args.mapM fun name => do
      Search.forget name
      if isBuiltin name || ((← get).functions.lookup name).isSome || name.contains '/' then return 0
      else
        match ← Search.remembering name with
        | .ok _ => return 0
        | .error e =>
          Sh.warn (name ++ ofText ": " ++ ofText (Search.words e))
          return 1
    return codes.foldl max 0

end Running

end BootDisk.Shell
