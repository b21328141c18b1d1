import BootDisk.Shell.Process

/-!
# Questions

The command of the shell that answers questions about texts, numbers and files. Its words are read one after the other, so that what a
word means depends on those around it.
-/

namespace BootDisk.Shell

namespace Test

/-- What a word can be in a question. -/
inductive Kind where
  | unary
  | binary
  | negation
  | conjunction
  | disjunction
  | openParen
  | closeParen
  deriving DecidableEq, Repr, Inhabited

/-- The words that mean something. -/
def kind? (w : Octets) : Option Kind :=
  let s := String.ofList w
  if ["-r", "-w", "-x", "-e", "-f", "-d", "-c", "-b", "-p", "-u", "-g", "-k", "-s", "-t", "-z", "-n", "-h", "-O", "-G", "-L",
      "-S"].contains s then some .unary
  else if ["=", "!=", "<", ">", "-eq", "-ne", "-ge", "-gt", "-le", "-lt", "-nt", "-ot", "-ef"].contains s then some .binary
  else
    match s with
    | "!" => some .negation
    | "-a" => some .conjunction
    | "-o" => some .disjunction
    | "(" => some .openParen
    | ")" => some .closeParen
    | _ => none

/-- What is found at a word: the end, an operand, or something that means more. -/
inductive Found where
  | finish
  | operand
  | sign (k : Kind)
  deriving DecidableEq, Repr, Inhabited

/-- A question at work: the place among its words; a question that is none ends in a message. -/
abbrev Asking := EStateM Octets Nat

/-- Whether the word behind a sign makes an operand of it. -/
def isOperand (ws : Array Octets) (i : Nat) : Bool :=
  match ws[i + 1]? with
  | none => true
  | some next => (ws[i + 2]?).isSome && kind? next == some .binary

/-- What the word at a place is. -/
def found (ws : Array Octets) (i : Nat) : Found :=
  match ws[i]? with
  | none => .finish
  | some w =>
    match kind? w with
    | some k =>
      if (k = .unary ∧ isOperand ws i) ∨ (k = .openParen ∧ i + 1 = ws.size) then .operand else .sign k
    | none => .operand

/-- Fails with a message about a word. -/
def refuse {α : Type} (w : Octets) (why : String) : Asking α :=
  throw (if w = [] then ofText why else w ++ ofText ": " ++ ofText why)

/-- The number that a word gives. -/
def integer (w : Octets) : Asking Int := do
  match Number.whole? (some 10) w with
  | some n => return n
  | none => throw (ofText "Illegal number: " ++ w)

/-! ## Files -/

/-- Whether a node can be run. -/
def isRunnable : Node → Bool
  | .file f => Nat.land f.mode 0o111 != 0
  | .directory => true
  | _ => false

/-- Whether a node holds anything. -/
def isNonempty : Node → Bool
  | .file f => f.content.length != 0
  | .directory => true
  | _ => false

/-- Whether a bit of a node's mode is set. -/
def hasBit (bit : Nat) : Node → Bool
  | .file f => Nat.land f.mode bit != 0
  | _ => false

/-- The answer to a question about a file. -/
def file (p : Process) (question : Char) (operand : Octets) : Bool :=
  let path : Path := ⟨toText operand⟩
  let node (holds : Node → Bool) : Bool :=
    match p.tree.stat p.cwd path with
    | .ok n => holds n
    | .error _ => false
  match question with
  | 'e' | 'r' | 'w' | 'O' | 'G' => node fun _ => true
  | 'f' => node Node.isFile
  | 'd' => node Node.isDirectory
  | 'h' | 'L' => p.tree.isLink p.cwd path
  | 'x' => node isRunnable
  | 's' => node isNonempty
  | 'c' => node (· == .device)
  | 'u' => node (hasBit 0o4000)
  | 'g' => node (hasBit 0o2000)
  | 'k' => node (hasBit 0o1000)
  | _ => false

/-- Whether two paths lead to the same place. -/
def same (p : Process) (a b : Octets) : Bool :=
  match p.tree.entry p.cwd ⟨toText a⟩ .through, p.tree.entry p.cwd ⟨toText b⟩ .through with
  | .ok (x, _), .ok (y, _) => x == y
  | _, _ => false

/-! ## Questions -/

/-- The answer to a question with one operand. -/
def unary (p : Process) (question operand : Octets) : Asking Bool := do
  match question with
  | ['-', 'n'] => return operand ≠ []
  | ['-', 'z'] => return operand = []
  | ['-', 't'] =>
    let _ ← integer operand
    return false
  | ['-', c] => return file p c operand
  | _ => return false

/-- The answer to a question with two operands. Files have no age that could be asked for. -/
def binary (p : Process) (a question b : Octets) : Asking Bool := do
  let compare (holds : Int → Int → Bool) : Asking Bool := do
    let x ← integer a
    return holds x (← integer b)
  match String.ofList question with
  | "=" => return a = b
  | "!=" => return a ≠ b
  | "<" => return a < b
  | ">" => return b < a
  | "-eq" => compare (· == ·)
  | "-ne" => compare (· != ·)
  | "-lt" => compare fun x y => x < y
  | "-le" => compare fun x y => x ≤ y
  | "-gt" => compare fun x y => y < x
  | "-ge" => compare fun x y => y ≤ x
  | "-ef" => return same p a b
  | _ => return false

/-- The word at the place. -/
def here (ws : Array Octets) : Asking Octets := do
  return (ws[← get]?).getD []

/-- Goes on by so many words, and tells what is there. -/
def goOn (ws : Array Octets) (n : Nat) : Asking Found := do
  modify (· + n)
  return found ws (← get)

mutual

/-- Questions of which one has to hold, the first word having been looked at; in at most so many steps. -/
def disjunction (p : Process) (ws : Array Octets) : Nat → Found → Asking Bool
  | 0, _ => return false
  | n + 1, t => do
    let a ← conjunction p ws n t
    if found ws ((← get) + 1) = .sign .disjunction then
      let t ← goOn ws 2
      let b ← disjunction p ws n t
      return a || b
    else return a

/-- Questions of which all have to hold. -/
def conjunction (p : Process) (ws : Array Octets) : Nat → Found → Asking Bool
  | 0, _ => return false
  | n + 1, t => do
    let a ← negation p ws n t
    if found ws ((← get) + 1) = .sign .conjunction then
      let t ← goOn ws 2
      let b ← conjunction p ws n t
      return a && b
    else return a

/-- A question that may be turned around. -/
def negation (p : Process) (ws : Array Octets) : Nat → Found → Asking Bool
  | 0, _ => return false
  | n + 1, t => do
    if t = .sign .negation then
      let next := found ws ((← get) + 1)
      if next ≠ .finish then modify (· + 1)
      return !(← negation p ws n next)
    else primary p ws n t

/-- A question without joints. -/
def primary (p : Process) (ws : Array Octets) : Nat → Found → Asking Bool
  | 0, _ => return false
  | n + 1, t => do
    match t with
    | .finish => return false
    | .sign .openParen =>
      let next ← goOn ws 1
      if next = .sign .closeParen then return false
      let a ← disjunction p ws n next
      if (← goOn ws 1) ≠ .sign .closeParen then refuse [] "closing paren expected"
      return a
    | .sign .unary =>
      let question ← here ws
      if (← goOn ws 1) = .finish then refuse question "argument expected"
      unary p question (← here ws)
    | _ =>
      let a ← here ws
      if found ws ((← get) + 1) = .sign .binary then
        let _ ← goOn ws 1
        let question ← here ws
        if (← goOn ws 1) = .finish then refuse question "argument expected"
        binary p a question (← here ws)
      else return a ≠ []

end

/-- The answer to a question that begins with a word that has been looked at. Nothing may be left of it. -/
def whole (p : Process) (ws : Array Octets) (t : Found) : Asking Bool := do
  let a ← disjunction p ws (4 * ws.size + 4) t
  let i ← get
  match ws[i]?, ws[i + 1]? with
  | some w, some _ => refuse w "unexpected operator"
  | _, _ => return a

/-- The answer to a question, which is turned around if there are signs for that before it; at most so many of them are passed over, and
one that is left counts for itself. -/
def answer (p : Process) : Nat → Bool → List Octets → Asking Bool
  | 0, turned, _ => return turned
  | n + 1, turned, ws => do
    let ask (ws : List Octets) : Asking Bool := do
      return (← whole p ws.toArray (found ws.toArray 0)) != turned
    match ws with
    | [] => return turned
    | [a, q, b] =>
      if kind? q = some .binary then return (← whole p #[a, q, b] .operand) != turned
      else if a = ['('] ∧ b = [')'] then ask [q]
      else if a = ['!'] then answer p n true [q, b]
      else ask ws
    | [a, b, c, d] =>
      if a = ['('] ∧ d = [')'] then ask [b, c]
      else if a = ['!'] then answer p n true [b, c, d]
      else ask ws
    | ws => ask ws

end Test

/-- Answers a question about texts, numbers and files. -/
def test (args : List Octets) : Sh Nat := do
  match Test.answer (← get) (args.length + 1) false args 0 with
  | .ok holds _ => return if holds then 0 else 1
  | .error why _ => Sh.fault why

/-- A question in brackets, whose closing one has to be there. -/
def bracketed (args : List Octets) : Sh Nat :=
  if args.getLast? = some [']'] then test args.dropLast else Sh.fault (ofText "missing ]")

end BootDisk.Shell
