import PalChecker.Proofs.Parser.DeclarationRules
import PalChecker.Proofs.Parser.History

/-!
# Reading step by step

The productions of the parser once more, with nothing said of why reading them ends: each calls others, the
operand that is missing calls for a factor again, and a run is given fuel, which bounds how deep the calls
go. A run tells of its steps: each call, each token that is skipped and each turn of a loop.
-/

namespace PalChecker.Parser

/-- How many tokens were consumed so far. -/
def State.consumed (s : State) : Nat := s.fates.count .consumed

/-- The tokens passed between `s` and `t` are what lay ahead of `s`, up to where `t` stands. -/
def State.Reaches (s t : State) : Prop :=
  ∃ between, t.passed = s.passed ++ between ∧ s.upcoming = between.map Prod.fst ++ t.upcoming

/-- On the way from `s` to `t` a token is consumed. -/
def State.ConsumesBefore (s t : State) : Prop := s.Reaches t ∧ s.consumed < t.consumed

/-! ## Steps -/

inductive Loop where
  | statements (stops : List TokenKind)
  | groups | names | values | terms | factors

/-- The loop takes another turn. -/
def Loop.GoesOn (l : Loop) (s : State) : Prop :=
  match l with
  | statements stops => ¬(s.kind = .endOfFile ∨ s.kind ∈ stops)
  | groups => AtDeclaration s
  | names | values => s.kind = .punct .comma
  | terms => (BinaryOp.additive? s.kind).isSome
  | factors => (BinaryOp.multiplicative? s.kind).isSome

inductive Step where
  | called
  | skipped (token : Token)
  | statement (before after : State)
  /-- An expression is read within a factor. -/
  | nested (before after : State)
  /-- For want of an operand, a factor is read from where reading resumed. -/
  | retried (s : State)
  | turned (l : Loop) (before after : State)

namespace Step

/-- A statement consumes a token, as does a factor before an expression within it, and a turn that is not the
last moves forward. A factor is only read again at a token that begins one. -/
def Advances : Step → Prop
  | called | skipped _ => True
  | statement before after | nested before after => before.ConsumesBefore after
  | retried s => s.kind ∈ TokenKind.factorStart
  | turned l before after => l.GoesOn after → after.remaining < before.remaining

def retriedAt? : Step → Option State
  | retried s => some s
  | called | skipped _ | statement .. | nested .. | turned .. => none

end Step

/-! ## Runs that tell of their steps -/

/-- Out of fuel, or a value with the state afterwards and the steps taken. -/
def Stepwise (α : Type) := State → Option (α × State × List Step)

namespace Stepwise

instance : Monad Stepwise where
  pure a := fun s => some (a, s, [])
  bind m k := fun s =>
    (m s).bind fun first => (k first.1 first.2.1).map fun rest => (rest.1, rest.2.1, first.2.2 ++ rest.2.2)

theorem bind_of_some {α β : Type} {m : Stepwise α} {k : α → Stepwise β} {s t u : State} {a : α} {b : β}
    {first rest : List Step} (h : m s = some (a, t, first)) (h' : k a t = some (b, u, rest)) :
    (m >>= k) s = some (b, u, first ++ rest) := by
  change (m s).bind _ = _
  rw [h]
  change (k a t).map _ = _
  rw [h']
  rfl

def get : Stepwise State := fun s => some (s, s, [])

def modify (f : State → State) : Stepwise Unit := fun s => some ((), f s, [])

def note (step : State → Step) : Stepwise Unit := fun s => some ((), s, [step s])

/-- Consumes the current token. -/
def take : Stepwise Token := fun s => some (s.current, s.bump, [])

/-- Completes a node that starts at `start`. -/
def finish {α : Type} (start : Location) (node : Stamp → α) : Stepwise α := fun s =>
  some (node (s.stamp start), s.tick, [])

def synchronize (n : Nonterminal) (extra : List TokenKind) : Stepwise Unit := fun s =>
  some ((), s.synchronize n extra, (s.cursor.skipped (n.syncSet ++ extra)).map .skipped)

def eatAny (kinds : List TokenKind) : Stepwise (Option Token) := fun s =>
  some ((s.eatAny kinds).value, (s.eatAny kinds).state, [])

def expectAny (kinds : List TokenKind) (n : Nonterminal) : Stepwise (Option Token) := do
  let s ← get
  if s.kind ∈ kinds then eatAny kinds
  else
    modify (State.fail n)
    synchronize n kinds
    eatAny kinds

def expect (kind : TokenKind) (n : Nonterminal) : Stepwise (Option Token) := expectAny [kind] n

end Stepwise

/-! ## Productions -/

inductive Production : Type → Type where
  | program : Production Program
  | declarations : Production (List Declaration)
  | moreDeclarations : Production (List Declaration)
  | declaration : Production Declaration
  | declType : Production (Option DeclType)
  | identifiers : Production (List Ident)
  | moreIdentifiers : Production (List Ident)
  | identifier : Production (Option Ident)
  | statements (stops : List TokenKind) : Production (List Statement)
  | statement : Production Statement
  | assignment : Production Statement
  | loop : Production Statement
  | conditional : Production Statement
  | inputOutput : Production Statement
  | moreValues : Production (List Expr)
  | condition : Production Condition
  | expression : Production Expr
  | sums (left : Expr) : Production Expr
  | term : Production Expr
  | products (left : Expr) : Production Expr
  | factor : Production Expr
  | primary : Production Expr

namespace Production

open Stepwise

/-- The statement that a token of this kind begins. -/
def ofHead : TokenKind → Production Statement
  | .identifier => assignment
  | .keyword .untilCond => loop
  | .keyword .ifCond => conditional
  | _ => inputOutput

/-- What a production does, with `call` for the productions that it calls. -/
def body (call : {α : Type} → Production α → Stepwise α) {α : Type} : Production α → Stepwise α
  | program => do
    let s ← get
    let _ ← expect (.keyword .program) .program
    let name ← expect .identifier .program
    let _ ← expect (.keyword .withDecls) .program
    let groups ← call declarations
    let _ ← expect (.keyword .inBody) .program
    let block ← call (statements [.keyword .endProgram])
    modify (State.filled block)
    let _ ← expect (.keyword .endProgram) .program
    modify State.ended
    return { name := name, declarations := groups, statements := block, location := s.location }
  | declarations => do
    let s ← get
    let first ← call declaration
    note (.turned .groups s)
    let rest ← call moreDeclarations
    return first :: rest
  | moreDeclarations => do
    let s ← get
    if AtDeclaration s then
      let first ← call declaration
      note (.turned .groups s)
      let rest ← call moreDeclarations
      return first :: rest
    else return []
  | declaration => do
    let s ← get
    let idents ← call identifiers
    let _ ← expect (.keyword .as) .varDecls
    let type ← call declType
    finish s.location fun stamp => { stamp, idents, type }
  | declType => do
    let s ← get
    if s.kind = .keyword .real then
      let _ ← take
      return some .real
    else if s.kind = .keyword .integer then
      let _ ← take
      return some .integer
    else
      modify fun s => (s.fail .type).dropName
      synchronize .type []
      return none
  | identifiers => do
    let first ← call identifier
    let rest ← call moreIdentifiers
    return first.toList ++ rest
  | moreIdentifiers => do
    let s ← get
    if s.kind = .punct .comma then
      let _ ← take
      let first ← call identifier
      note (.turned .names s)
      let rest ← call moreIdentifiers
      return first.toList ++ rest
    else return []
  | identifier => do
    match ← expect .identifier .identList with
    | some token => finish token.location fun stamp => some ⟨stamp, token⟩
    | none => return none
  | statements stops => do
    let s ← get
    if s.kind = .endOfFile ∨ s.kind ∈ stops then return []
    else if s.kind ∈ TokenKind.statementStart then
      let first ← call statement
      note (.turned (.statements stops) s)
      let rest ← call (statements stops)
      return first :: rest
    else
      modify fun s => (s.fail .statement).discard
      synchronize .statement []
      note (.turned (.statements stops) s)
      call (statements stops)
  | statement => do
    let s ← get
    let read ← call (ofHead s.kind)
    note (.statement s)
    return read
  | assignment => do
    let head ← take
    let target ← finish head.location fun stamp => Ident.mk stamp head
    match ← expect (.punct .equals) .assignment with
    | some _ =>
      let value ← call expression
      finish head.location fun stamp => .assignment stamp target value
    | none =>
      let value ← finish head.location .error
      finish head.location fun stamp => .assignment stamp target value
  | loop => do
    let head ← take
    let test ← call condition
    let _ ← expect (.keyword .repeatBody) .loop
    let block ← call (statements TokenKind.blockEnd)
    let _ ← expect (.keyword .endLoop) .loop
    finish head.location fun stamp => .loop stamp test block
  | conditional => do
    let head ← take
    let test ← call condition
    let _ ← expect (.keyword .thenBranch) .conditional
    let whenTrue ← call (statements TokenKind.blockEnd)
    let otherwise ← (do
      match ← eatAny [.keyword .elseBranch] with
      | some _ =>
        let block ← call (statements TokenKind.blockEnd)
        return some block
      | none => return none)
    let _ ← expect (.keyword .endIf) .conditional
    finish head.location fun stamp => .conditional stamp test whenTrue otherwise
  | inputOutput => do
    let head ← take
    if head.kind = .keyword .input then
      let targets ← call identifiers
      finish head.location fun stamp => .input stamp targets
    else
      let first ← call expression
      let rest ← call moreValues
      finish head.location fun stamp => .output stamp (first :: rest)
  | moreValues => do
    let s ← get
    if s.kind = .punct .comma then
      let _ ← take
      let first ← call expression
      note (.turned .values s)
      let rest ← call moreValues
      return first :: rest
    else return []
  | condition => do
    let s ← get
    let left ← call expression
    let op ← expectAny TokenKind.relationalOperator .booleanExpr
    let right ← call expression
    finish s.location fun stamp =>
      { stamp, left, op := op.bind fun token => RelationalOp.ofKind? token.kind, right }
  | expression => do
    let first ← call term
    call (sums first)
  | sums left => do
    let s ← get
    match BinaryOp.additive? s.kind with
    | none => return left
    | some op =>
      let head ← take
      let right ← call term
      let node ← finish head.location fun stamp => .binary stamp left op right
      note (.turned .terms s)
      call (sums node)
  | term => do
    let first ← call factor
    call (products first)
  | products left => do
    let s ← get
    match BinaryOp.multiplicative? s.kind with
    | none => return left
    | some op =>
      let head ← take
      let right ← call factor
      let node ← finish head.location fun stamp => .binary stamp left op right
      note (.turned .factors s)
      call (products node)
  | factor => do
    let s ← get
    match Sign.ofKind? s.kind with
    | none => call primary
    | some sign =>
      let head ← take
      let operand ← call primary
      finish head.location fun stamp => .unary stamp sign operand
  | primary => do
    let s ← get
    if s.kind ∈ TokenKind.value then
      let head ← take
      finish head.location fun stamp => .value stamp head
    else if s.kind = .punct .lparen then
      let head ← take
      note (.nested s)
      let inner ← call expression
      let _ ← expect (.punct .rparen) .factor
      finish head.location fun stamp => .group stamp inner
    else
      modify (State.fail .factor)
      synchronize .factor []
      let resumed ← get
      if resumed.kind ∈ TokenKind.factorStart then
        note .retried
        call factor
      else finish s.location .error

/-- Runs a production. Calls go no deeper than there is fuel. -/
def run (fuel : Nat) {α : Type} (p : Production α) : Stepwise α :=
  match fuel with
  | 0 => fun _ => none
  | fuel + 1 => do
    note fun _ => .called
    p.body (run fuel)

end Production

end PalChecker.Parser
