import Walkthrough.Script.LogicalLine
import Walkthrough.Script.Name
import Walkthrough.Script.Statement

/-!
From the tokens of a logical line to its statement. Each reader takes the tokens that are left and
yields what it has read together with those after it. An error is reported at the first token that
cannot go on; where the tokens run out, it is reported on the line of the first token.
-/
namespace Walkthrough.Grammar

abbrev Read (α : Type) := Except SyntaxError α

def refuse {α : Type} (line : Int) (expected : Expectation) : List Token → Read α
  | t :: _ => .error ⟨t.line, expected, .text t.text⟩
  | [] => .error ⟨line, expected, .endOfLine⟩

def name? (t : Token) : Option String :=
  match t.lexeme with
  | .word letters => if Name.isName letters.toList then some letters else none
  | _ => none

def param? (t : Token) : Option Param :=
  match t.lexeme with
  | .quoted content => some (.quoted content)
  | .number digits => some (.number digits)
  | _ => (name? t).map .named

def isKeyword (k : Keyword) (t : Token) : Bool := t.lexeme = .keyword k

def verb? (t : Token) : Option Verb :=
  match t.lexeme with
  | .keyword (.verb v) => some v
  | _ => none

def one {α : Type} (line : Int) (expected : Expectation) (accept? : Token → Option α)
    (tokens : List Token) : Read (α × List Token) :=
  match tokens with
  | [] => refuse line expected []
  | t :: rest =>
    match accept? t with
    | some a => .ok (a, rest)
    | none => refuse line expected (t :: rest)

def keyword (line : Int) (k : Keyword) : List Token → Read (Unit × List Token) :=
  one line (.keyword k) fun t => if isKeyword k t then some () else none

def param (line : Int) : List Token → Read (Param × List Token) := one line .argument param?

def arguments (line : Int) (v : Verb) (tokens : List Token) : Read (Command × List Token) :=
  match v.shape with
  | .bare => .ok ({ verb := v }, tokens)
  | .argument => do
    let (p, rest) ← param line tokens
    return ({ verb := v, param := some p }, rest)
  | .target => do
    let (name, rest) ← one line .variableName name? tokens
    return ({ verb := v, target := some name }, rest)

/-- A command. Running again can be asked for only where `handling`. -/
def command (line : Int) (handling : Bool) (tokens : List Token) : Read (Command × List Token) := do
  let (v, rest) ← one line .command verb? tokens
  if v = .tryAgain && !handling then refuse line .handlerForTryAgain tokens
  else arguments line v rest

theorem length_one {α : Type} {line : Int} {expected : Expectation} {accept? : Token → Option α}
    {tokens rest : List Token} {a : α} (h : one line expected accept? tokens = .ok (a, rest)) :
    rest.length < tokens.length := by
  unfold one at h
  split at h
  · simp [refuse] at h
  · split at h
    · cases h; simp
    · simp [refuse] at h

theorem length_arguments {line : Int} {v : Verb} {tokens rest : List Token} {c : Command}
    (h : arguments line v tokens = .ok (c, rest)) : rest.length ≤ tokens.length := by
  unfold arguments at h
  split at h
  · cases h; exact Nat.le_refl _
  · cases read : param line tokens with
    | error e => simp [read, bind, Except.bind] at h
    | ok result =>
      simp only [read, bind, Except.bind, pure, Except.pure, Except.ok.injEq, Prod.mk.injEq] at h
      obtain ⟨-, rfl⟩ := h
      exact Nat.le_of_lt (length_one read)
  · cases read : one line .variableName name? tokens with
    | error e => simp [read, bind, Except.bind] at h
    | ok result =>
      simp only [read, bind, Except.bind, pure, Except.pure, Except.ok.injEq, Prod.mk.injEq] at h
      obtain ⟨-, rfl⟩ := h
      exact Nat.le_of_lt (length_one read)

theorem length_command {line : Int} {handling : Bool} {tokens rest : List Token} {c : Command}
    (h : command line handling tokens = .ok (c, rest)) : rest.length < tokens.length := by
  unfold command at h
  cases read : one line .command verb? tokens with
  | error e => simp [read, bind, Except.bind] at h
  | ok result =>
    simp only [read, bind, Except.bind] at h
    split at h
    · cases tokens <;> simp [refuse] at h
    · have first : result.2.length < tokens.length := length_one (a := result.1) read
      have second := length_arguments h
      omega

def sequence (line : Int) (handling : Bool) (tokens : List Token) : Read (List Command × List Token) :=
  match h : command line handling tokens with
  | .error e => .error e
  | .ok (c, []) => .ok ([c], [])
  | .ok (c, t :: rest) =>
    if isKeyword .and t then
      have : rest.length < tokens.length := by
        have := length_command h
        simp only [List.length_cons] at this
        omega
      match sequence line handling rest with
      | .error e => .error e
      | .ok (later, after) => .ok (c :: later, after)
    else .ok ([c], t :: rest)
termination_by tokens.length

def finish {α : Type} (line : Int) (a : α) : List Token → Read α
  | [] => .ok a
  | rest => refuse line .endOfStatement rest

def closing (line : Int) (handling : Bool) (form : List Command → Form) (tokens : List Token) :
    Read Form := do
  let (body, rest) ← sequence line handling tokens
  finish line (form body) rest

def saving (line : Int) (tokens : List Token) : Read Form := do
  let quoted? := fun t : Token =>
    match t.lexeme with
    | .quoted content => some content
    | _ => none
  let (value, rest) ← one line .quotedValue quoted? tokens
  let ((), rest) ← keyword line .as rest
  let (name, rest) ← one line .variableName name? rest
  finish line (.save value name) rest

def form (line : Int) (first : Token) (rest : List Token) : Read Form :=
  match first.lexeme with
  | .comment text => .ok (.comment text)
  | .keyword .save => saving line rest
  | .keyword .conditional => do
    let (predicate, rest) ← command line false rest
    let ((), rest) ← keyword line .thereupon rest
    closing line false (.conditional predicate) rest
  | .keyword .catchError => closing line true .handler rest
  | .keyword .under => do
    let (anchor, rest) ← param line rest
    closing line false (.under (some anchor)) rest
  | .keyword .underActiveElement => closing line false (.under none) rest
  | _ => closing line false .run (first :: rest)

def statement (l : LogicalLine) : Read Statement := do
  let form ← form l.first.line l.first l.rest
  return ⟨form, l.first.line⟩

end Walkthrough.Grammar
