import BootDisk.Shell.Expansion

/-!
# Redirections at work

How the file numbers of a shell come to lead elsewhere. The names of all files are expanded first; then the redirections are made one after
the other, up to the first that cannot be made.
-/

namespace BootDisk.Shell

/-- A redirection whose words have been expanded. -/
inductive Lead where
  | file (number : Nat) (opening : Opening) (path : Octets)
  | duplicate (number source : Nat)
  | closing (number : Nat)
  | document (number : Nat) (expanded : Bool) (id : Nat)
  deriving Repr, Inhabited

namespace Lead

/-- The number that is made to lead elsewhere. -/
def number : Lead → Nat
  | file n _ _ => n
  | duplicate n _ => n
  | closing n => n
  | document n _ _ => n

/-- A redirection with its words expanded. What is no single digit is no file number. -/
def ofRedirection (lv : Level) : Redirection → Sh Lead
  | .file n opening name => return .file n opening (← Expansion.single lv Purpose.ofText name)
  | .document n expanded id => return .document n expanded id
  | .duplicate n source => do
    match ← Expansion.single lv Purpose.ofText source with
    | ['-'] => return .closing n
    | [c] => if c.isDigit then return .duplicate n (c.toNat - 48) else badNumber
    | _ => badNumber
where
  /-- The fault of what is no file number, which is told where the reading is. -/
  badNumber : Sh Lead := do
    modify fun p => { p with line := p.readingLine }
    Sh.fault (ofText "Syntax error: Bad fd number")

/-- The file number that a path stands for. -/
def numberOf? (path : Octets) : Option Nat :=
  match String.ofList path with
  | "/dev/stdin" => some 0
  | "/dev/stdout" => some 1
  | "/dev/stderr" => some 2
  | _ => if "/dev/fd/".toList.isPrefixOf path then toNat? (path.drop 8) else none

/-- The shell's words for a path that could not be opened. -/
def openFault {α : Type} (verb missing : String) (path : Octets) (e : IoError) : Sh α :=
  let why := if e = .os .noEntry ∨ e = .os .notDirectory then missing else errorText e
  Sh.fault (ofText verb ++ ' ' :: path ++ ofText ": " ++ ofText why)

/-- Where an open node leads. -/
def targetOf (place : Place) : Node → Target
  | .file _ => .file place
  | .device => .device
  | _ => .directory

/-- Opens a file to be read. -/
def openToRead (path : Octets) : Sh OpenFile := do
  let p ← get
  match p.tree.entry p.cwd ⟨toText path⟩ .through with
  | .ok (place, node) => return { target := targetOf place node, isReadable := true }
  | .error e => openFault "cannot open" "No such file" path e

/-- The bits of a new file that nothing else is said about. -/
def newBits (p : Process) : Nat :=
  Nat.land 0o666 (0o777 - p.mask)

/-- Opens a file to be written to, and makes it if there is none. -/
def openToWrite (empties appends reads : Bool) (path : Octets) : Sh OpenFile := do
  let p ← get
  let opened ← Sh.files fun cwd => do
    let (place, n) ← FileCall.openCreate cwd ⟨toText path⟩ (newBits p)
    if empties then FileCall.store place n .empty
    return (place, n)
  match opened with
  | .ok (place, n) => return { target := targetOf place n, appends := appends, isReadable := reads, isWritable := true }
  | .error e => openFault "cannot create" "Directory nonexistent" path e

/-- Whether there is a regular file that is not to be written over. -/
def isSpared (p : Process) (forced : Bool) (path : Octets) : Bool :=
  p.has .noclobber && !forced && p.tree.isFile p.cwd ⟨toText path⟩

/-- Makes a redirection. Where numbers are kept to lead back later, one that cannot be led anywhere leads nowhere by the time this is
told. -/
def make (lv : Level) (keeps : Bool) : Lead → Sh Unit
  | .file n opening path => do
    let p ← get
    match numberOf? path with
    | some source =>
      match p.files.lookup source with
      | some index => Sh.lead n index
      | none =>
        if opening = .read then openFault "cannot open" "No such file" path (.os .noEntry)
        else openFault "cannot create" "Directory nonexistent" path (.os .noEntry)
    | none =>
      let f ←
        match opening with
        | .read => openToRead path
        | .append => openToWrite false true false path
        | .both => openToWrite false false true path
        | .write forced =>
          if isSpared p forced path then openFault "cannot create" "Directory nonexistent" path (.os .alreadyExists)
          else openToWrite true false false path
      Sh.lead n (← Sh.openAs f)
  | .duplicate n source => do
    if n = source then return
    match (← get).files.lookup source with
    | some index => Sh.lead n index
    | none =>
      if keeps then Sh.unlead n
      Sh.fault (ofNat source ++ ofText ": Bad file descriptor")
  | .closing n => Sh.unlead n
  | .document n expanded id => do
    let body := ((← get).documents[id]?).getD []
    let os ← if expanded then Expansion.single lv Purpose.ofDocument body else pure body.flat
    let (source, sink) ← Sh.openPipe
    Sh.pour sink { target := .pipe ((← get).pipes.size - 1), isWritable := true } (toBytes os)
    Sh.lead n source

end Lead

namespace Sh

/-- Expands the words of redirections. -/
def leads (lv : Level) (rs : List Redirection) : Sh (List Lead) :=
  rs.mapM (Lead.ofRedirection lv)

/-- Makes redirections; a fault in one of them is a code and not a way out. -/
def redirect (lv : Level) (keeps : Bool) (ls : List Lead) : Sh Nat := fun p =>
  match ls.forM (Lead.make lv keeps) p with
  | .ok () q => .ok 0 q
  | .error (.failed code) q => .ok code q
  | .error e q => .error e q

/-- Runs something with the numbers that redirections concern leading where they did afterwards. -/
def keepingLeads {α : Type} (ls : List Lead) (x : Sh α) : Sh α :=
  let numbers := ls.map Lead.number
  restoring
    (fun before after =>
      { after with
        files := (before.files.filter fun f => numbers.contains f.1) ++ after.files.filter fun f => !numbers.contains f.1 })
    x

end Sh

end BootDisk.Shell
