import BootDisk.Shell.Number

/-!
# Sums

The arithmetic of the shell: whole numbers of 64 bits that wrap, variables, the usual operators with their ranks. Truth is 1 and
falsehood 0. A part whose value is not needed is read but not worked out, so it sets nothing and cannot fail by its values.
-/

namespace BootDisk.Shell

/-- Why a sum has no value. -/
inductive SumFault where
  | expectingPrimary
  | expectingEnd
  | expectingParenthesis
  | expectingColon
  | divisionByZero
  | quotientTooLarge
  | illegalNumber (os : Octets)
  | readOnly (name : Octets)
  deriving DecidableEq, Repr, Inhabited

/-- A token of a sum. What is no token ends all reading. -/
inductive SumToken where
  | finish
  | number (n : Int)
  | name (os : Octets)
  | sign (text : String)
  | unknown
  deriving DecidableEq, Repr, Inhabited

/-- The variables that a sum looks at and sets. -/
structure SumVariables where
  value? : Octets → Option Octets
  isReadOnly : Octets → Bool

/-- Where a sum has been read to, the last token, and what has been set, the newest first. -/
structure SumState where
  rest : Octets
  last : SumToken := .finish
  sets : List (Octets × Octets) := []
  deriving Inhabited

/-- Something that is done with a sum. -/
abbrev Summing := EStateM SumFault SumState

namespace Sum

/-- The operators, the longer ones first so that the longest that fits is taken. -/
def signs : List String :=
  ["<<=", ">>=", "<<", ">>", "<=", ">=", "==", "!=", "&&", "||", "+=", "-=", "*=", "/=", "%=", "&=", "|=", "^=", "+", "-", "*", "/",
    "%", "<", ">", "!", "~", "(", ")", "=", "&", "|", "^", "?", ":"]

/-- Takes the next token. -/
def next : Summing SumToken := do
  let rest := (← get).rest.dropWhile fun c => c == ' ' || c == '\t' || c == '\n'
  let goOn (rest : Octets) : Summing Unit := modify fun s => { s with rest := rest }
  match rest with
  | [] =>
    goOn []
    return .finish
  | c :: _ =>
    if c.isDigit then
      let r := Number.read none rest
      goOn r.rest
      return .number r.value
    else if isNameStart c then
      let (name, after) := splitName rest
      goOn after
      return .name name
    else
      match signs.find? fun s => s.toList.isPrefixOf rest with
      | some s =>
        goOn (rest.drop s.length)
        return .sign s
      | none =>
        goOn rest
        return .unknown

/-- Remembers the token that a part ends at. -/
def endAt (t : SumToken) : Summing Unit :=
  modify fun s => { s with last := t }

/-- A number brought back into 64 bits. -/
def wrapped (n : Int) : Int :=
  Int.bmod n 0x10000000000000000

/-- Truth as a number. -/
def truth (b : Bool) : Int :=
  if b then 1 else 0

/-- The rank of an operator between two operands, the ones that bind first having the least. -/
def rank? (s : String) : Option Nat :=
  [("*", 0), ("/", 0), ("%", 0), ("+", 1), ("-", 1), ("<<", 2), (">>", 2), ("<", 3), ("<=", 3), (">", 3), (">=", 3), ("==", 4),
    ("!=", 4), ("&", 5), ("^", 6), ("|", 7)].lookup s

/-- A rank behind all ranks. -/
def maxRank : Nat := 8

/-- The rank of an operator, as a token. -/
def tokenRank? : SumToken → Option Nat
  | .sign s => rank? s
  | _ => none

/-- An operation on the bits of two numbers. -/
def onBits (f : Int64 → Int64 → Int64) (a b : Int) : Int :=
  (f (Int64.ofInt a) (Int64.ofInt b)).toInt

/-- What an operator makes of two operands. -/
def apply (s : String) (a b : Int) : Summing Int := do
  match s with
  | "==" => return truth (a == b)
  | "!=" => return truth (a != b)
  | "<" => return truth (a < b)
  | "<=" => return truth (a ≤ b)
  | ">" => return truth (b < a)
  | ">=" => return truth (b ≤ a)
  | "+" => return wrapped (a + b)
  | "-" => return wrapped (a - b)
  | "*" => return wrapped (a * b)
  | "/" =>
    checkDivision
    return Int.tdiv a b
  | "%" =>
    checkDivision
    return Int.tmod a b
  | "<<" => return onBits (· <<< ·) a b
  | ">>" => return onBits (· >>> ·) a b
  | "&" => return onBits (· &&& ·) a b
  | "|" => return onBits (· ||| ·) a b
  | _ => return onBits (· ^^^ ·) a b
where
  /-- Refuses divisions that have no quotient. -/
  checkDivision : Summing Unit := do
    if b = 0 then throw .divisionByZero
    if a = Number.least ∧ b = -1 then throw .quotientTooLarge

/-- The number that a variable holds; one that is not set holds 0. -/
def numberOf (vars : SumVariables) (name : Octets) : Summing Int := do
  let text := (((← get).sets.lookup name).or (vars.value? name)).getD []
  match Number.whole? none text with
  | some n => return n
  | none => throw (.illegalNumber text)

/-- Sets a variable. -/
def setNumber (vars : SumVariables) (name : Octets) (n : Int) : Summing Int := do
  if vars.isReadOnly name then throw (.readOnly name)
  modify fun s => { s with sets := (name, ofInt n) :: s.sets }
  return n

/-- The signs that set a variable to what an operator makes of it. -/
def settingSigns : List String :=
  ["+=", "-=", "*=", "/=", "%=", "<<=", ">>=", "&=", "|=", "^="]

/-- The operator of a setting; the plain one has none. -/
def settingOperator? : SumToken → Option (Option String)
  | .sign "=" => some none
  | .sign s => if settingSigns.contains s then some (some (s.dropEnd 1).toString) else none
  | _ => none

/-- A whole sum whose first token is given, worked out if `isNeeded`, by the level below. -/
abbrev Level := Bool → SumToken → Summing Int

/-- An operand whose first two tokens are given; the signs before it are at most so many. -/
def primary (vars : SumVariables) (whole : Level) (isNeeded : Bool) : Nat → SumToken → SumToken → Summing Int
  | 0, _, _ => throw .expectingPrimary
  | n + 1, t, after => do
    match t with
    | .number v =>
      endAt after
      return v
    | .name x =>
      endAt after
      if isNeeded then numberOf vars x else return 0
    | .sign "(" =>
      let v ← whole isNeeded after
      if (← get).last ≠ .sign ")" then throw .expectingParenthesis
      endAt (← next)
      return v
    | .sign "+" => primary vars whole isNeeded n after (← next)
    | .sign "-" => return wrapped (-(← primary vars whole isNeeded n after (← next)))
    | .sign "!" => return truth ((← primary vars whole isNeeded n after (← next)) == 0)
    | .sign "~" => return wrapped (-(← primary vars whole isNeeded n after (← next)) - 1)
    | _ => throw .expectingPrimary

/-- What bounds the number of tokens that are left. -/
def bound : Summing Nat := do
  return (← get).rest.length + 2

/-- The operand that comes next. -/
def operand (vars : SumVariables) (whole : Level) (isNeeded : Bool) : Summing Int := do
  let n ← bound
  let t ← next
  primary vars whole isNeeded n t (← next)

/-- Goes on behind an operand and an operator, as long as the operators bind before a rank; at most so many. -/
def operators (vars : SumVariables) (whole : Level) (isNeeded : Bool) : Nat → Int → String → Nat → Summing Int
  | 0, a, _, _ => return a
  | n + 1, a, op, before => do
    let b ← operand vars whole isNeeded
    let mine := (rank? op).getD maxRank
    let b ←
      match (← get).last with
      | .sign s => if (rank? s).any (· < mine) then operators vars whole isNeeded n b s mine else pure b
      | _ => pure b
    let a ← if isNeeded then apply op a b else pure b
    match (← get).last with
    | .sign s => if (rank? s).any (· < before) then operators vars whole isNeeded n a s before else return a
    | _ => return a

/-- Operands and operators between them, whose first two tokens are given. -/
def chain (vars : SumVariables) (whole : Level) (isNeeded : Bool) (t after : SumToken) : Summing Int := do
  let a ← primary vars whole isNeeded (← bound) t after
  match (← get).last with
  | .sign s => if (rank? s).isSome then operators vars whole isNeeded (← bound) a s maxRank else return a
  | _ => return a

/-- Chains of which all have to hold; at most so many. -/
def conjunction (vars : SumVariables) (whole : Level) : Nat → Bool → SumToken → SumToken → Summing Int
  | 0, _, _, _ => throw .expectingPrimary
  | n + 1, isNeeded, t, after => do
    let a ← chain vars whole isNeeded t after
    if (← get).last = .sign "&&" then
      let t ← next
      let b ← conjunction vars whole n (isNeeded && a != 0) t (← next)
      return truth (a != 0 && b != 0)
    else return a

/-- Conjunctions of which one has to hold; at most so many. -/
def disjunction (vars : SumVariables) (whole : Level) : Nat → Bool → SumToken → SumToken → Summing Int
  | 0, _, _, _ => throw .expectingPrimary
  | n + 1, isNeeded, t, after => do
    let a ← conjunction vars whole (← bound) isNeeded t after
    if (← get).last = .sign "||" then
      let t ← next
      let b ← disjunction vars whole n (isNeeded && a == 0) t (← next)
      return truth (a != 0 || b != 0)
    else return a

/-- A disjunction, or a choice between two values; at most so many. -/
def choice (vars : SumVariables) (whole : Level) : Nat → Bool → SumToken → SumToken → Summing Int
  | 0, _, _, _ => throw .expectingPrimary
  | n + 1, isNeeded, t, after => do
    let a ← disjunction vars whole (← bound) isNeeded t after
    if (← get).last = .sign "?" then
      let yes ← whole (isNeeded && a != 0) (← next)
      if (← get).last ≠ .sign ":" then throw .expectingColon
      let t ← next
      let no ← choice vars whole n (isNeeded && a == 0) t (← next)
      return if a != 0 then yes else no
    else return a

/-- A setting, or a choice. -/
def setting (vars : SumVariables) (whole : Level) : Level := fun isNeeded t => do
  let after ← next
  match t, settingOperator? after with
  | .name x, some op =>
    let v ← whole isNeeded (← next)
    if !isNeeded then return v
    match op with
    | none => setNumber vars x v
    | some op => setNumber vars x (← apply op (← numberOf vars x) v)
  | t, _ => choice vars whole (← bound) isNeeded t after

/-- A sum with at most so many levels. -/
def level (vars : SumVariables) : Nat → Level
  | 0 => fun _ _ => throw .expectingPrimary
  | n + 1 => setting vars (level vars n)

/-- The value of a sum, and the variables it has set by then, the newest first. -/
def value (vars : SumVariables) (os : Octets) : Except SumFault Int × List (Octets × Octets) :=
  let run : Summing Int := do
    let v ← level vars (os.length + 1) true (← next)
    if (← get).last ≠ .finish then throw .expectingEnd
    return v
  match run { rest := os } with
  | .ok v s => (.ok v, s.sets)
  | .error e s => (.error e, s.sets)

end Sum

namespace SumFault

/-- The words for a fault that is told with the sum; the others are told by themselves. -/
def inSum? : SumFault → Option String
  | expectingPrimary => some "expecting primary"
  | expectingEnd => some "expecting EOF"
  | expectingParenthesis => some "expecting ')'"
  | expectingColon => some "expecting ':'"
  | divisionByZero => some "division by zero"
  | _ => none

end SumFault

end BootDisk.Shell
