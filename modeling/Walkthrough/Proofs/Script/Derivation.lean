import Walkthrough.Proofs.Except
import Walkthrough.Script.Grammar

/-!
The grammar of statements, as derivations over the lexemes of a logical line, and its agreement with
the readers: what a reader takes off the tokens has a derivation, and what has a derivation is taken.
A keyword is never a name, even where it is written as a word; the readers need not ask, for the lexemes
of a line hold no such word (`Lexeme.Free`).
-/
namespace Walkthrough

def Lexeme.Free : Lexeme → Prop
  | .word letters => ∀ k : Keyword, k.text ≠ letters
  | _ => True

namespace Grammar

inductive Identifier : Lexeme → String → Prop where
  | word (name : String) (shape : Name.isName name.toList = true) (free : ∀ k : Keyword, k.text ≠ name) :
    Identifier (.word name) name

inductive Argument : Lexeme → Param → Prop where
  | quoted (content : String) : Argument (.quoted content) (.quoted content)
  | number (digits : String) : Argument (.number digits) (.number digits)
  | named {lexeme : Lexeme} {name : String} (identifier : Identifier lexeme name) :
    Argument lexeme (.named name)

/-- A verb with what its shape asks for; `handling` allows running again to be asked for. -/
inductive CommandOf (handling : Bool) : List Lexeme → Command → Prop where
  | bare (v : Verb) (shape : v.shape = .bare) (allowed : v = .tryAgain → handling = true) :
    CommandOf handling [.keyword (.verb v)] { verb := v }
  | argument {lexeme : Lexeme} {p : Param} (v : Verb) (shape : v.shape = .argument)
      (argument : Argument lexeme p) :
    CommandOf handling [.keyword (.verb v), lexeme] { verb := v, param := some p }
  | target {lexeme : Lexeme} {name : String} (v : Verb) (shape : v.shape = .target)
      (identifier : Identifier lexeme name) :
    CommandOf handling [.keyword (.verb v), lexeme] { verb := v, target := some name }

inductive SequenceOf (handling : Bool) : List Lexeme → List Command → Prop where
  | last {lexemes : List Lexeme} {c : Command} (command : CommandOf handling lexemes c) :
    SequenceOf handling lexemes [c]
  | joined {lexemes later : List Lexeme} {c : Command} {cs : List Command}
      (command : CommandOf handling lexemes c) (more : SequenceOf handling later cs) :
    SequenceOf handling (lexemes ++ .keyword .and :: later) (c :: cs)

inductive FormOf : List Lexeme → Form → Prop where
  | comment (text : String) : FormOf [.comment text] (.comment text)
  | save {lexeme : Lexeme} {name : String} (value : String) (identifier : Identifier lexeme name) :
    FormOf [.keyword .save, .quoted value, .keyword .as, lexeme] (.save value name)
  | conditional {lexemes later : List Lexeme} {c : Command} {cs : List Command}
      (predicate : CommandOf false lexemes c) (body : SequenceOf false later cs) :
    FormOf (.keyword .conditional :: (lexemes ++ .keyword .thereupon :: later)) (.conditional c cs)
  | handler {lexemes : List Lexeme} {cs : List Command} (body : SequenceOf true lexemes cs) :
    FormOf (.keyword .catchError :: lexemes) (.handler cs)
  | under {lexeme : Lexeme} {lexemes : List Lexeme} {p : Param} {cs : List Command}
      (anchor : Argument lexeme p) (body : SequenceOf false lexemes cs) :
    FormOf (.keyword .under :: lexeme :: lexemes) (.under (some p) cs)
  | underActive {lexemes : List Lexeme} {cs : List Command} (body : SequenceOf false lexemes cs) :
    FormOf (.keyword .underActiveElement :: lexemes) (.under none cs)
  | run {lexemes : List Lexeme} {cs : List Command} (body : SequenceOf false lexemes cs) :
    FormOf lexemes (.run cs)

def lexemes (tokens : List Token) : List Lexeme := tokens.map (·.lexeme)

def Free (tokens : List Token) : Prop := ∀ t ∈ tokens, t.lexeme.Free

theorem free_of_cons {t : Token} {rest : List Token} (free : Free (t :: rest)) : t.lexeme.Free ∧ Free rest :=
  ⟨free t List.mem_cons_self, fun u inRest => free u (List.mem_cons_of_mem t inRest)⟩

theorem free_of_append {used rest : List Token} (free : Free (used ++ rest)) : Free rest :=
  fun t inRest => free t (List.mem_append_right used inRest)

theorem one_eq_ok {α : Type} {line : Int} {expected : Expectation} {accept? : Token → Option α}
    {tokens rest : List Token} {a : α} :
    one line expected accept? tokens = .ok (a, rest) ↔ ∃ t, accept? t = some a ∧ tokens = t :: rest := by
  cases tokens with
  | nil => simp [one, refuse]
  | cons t later =>
    cases taken : accept? t with
    | none =>
      simp only [one, taken, refuse, reduceCtorEq, false_iff]
      intro given
      obtain ⟨u, taken', same⟩ := given
      cases same
      simp [taken] at taken'
    | some b =>
      simp only [one, taken, Except.ok.injEq, Prod.mk.injEq]
      constructor
      · intro given
        obtain ⟨rfl, rfl⟩ := given
        exact ⟨t, taken, rfl⟩
      · intro given
        obtain ⟨u, taken', same⟩ := given
        cases same
        exact ⟨Option.some.inj (taken.symm.trans taken'), rfl⟩

theorem name?_complete {t : Token} {name : String} (identifier : Identifier t.lexeme name) :
    name? t = some name := by
  generalize lexeme : t.lexeme = l at identifier
  cases identifier with
  | word name shape free => simp [name?, lexeme, shape]

theorem name?_sound {t : Token} {name : String} (free : t.lexeme.Free) (taken : name? t = some name) :
    Identifier t.lexeme name := by
  unfold name? at taken
  cases lexeme : t.lexeme with
  | word letters =>
    rw [lexeme] at taken free
    simp only [Option.ite_none_right_eq_some, Option.some.injEq] at taken
    obtain ⟨shape, rfl⟩ := taken
    exact .word letters shape free
  | _ => simp [lexeme] at taken

theorem param?_complete {t : Token} {p : Param} (argument : Argument t.lexeme p) :
    param? t = some p := by
  generalize lexeme : t.lexeme = l at argument
  cases argument with
  | quoted content => simp [param?, lexeme]
  | number digits => simp [param?, lexeme]
  | named identifier =>
    rw [← lexeme] at identifier
    have taken := name?_complete identifier
    cases identifier' : t.lexeme with
    | word letters => simp [param?, identifier', taken]
    | _ => simp [name?, identifier'] at taken

theorem param?_sound {t : Token} {p : Param} (free : t.lexeme.Free) (taken : param? t = some p) :
    Argument t.lexeme p := by
  unfold param? at taken
  split at taken
  · rename_i content lexeme
    cases taken
    rw [lexeme]
    exact .quoted content
  · rename_i digits lexeme
    cases taken
    rw [lexeme]
    exact .number digits
  · obtain ⟨name, named, rfl⟩ := Option.map_eq_some_iff.mp taken
    exact .named (name?_sound free named)

theorem verb?_eq_some {t : Token} {v : Verb} : verb? t = some v ↔ t.lexeme = .keyword (.verb v) := by
  unfold verb?
  split
  · rename_i w lexeme
    simp [lexeme]
  · rename_i other
    simp only [reduceCtorEq, false_iff]
    exact other v

theorem keyword_eq_ok {line : Int} {k : Keyword} {tokens rest : List Token} :
    keyword line k tokens = .ok ((), rest) ↔ ∃ t : Token, t.lexeme = .keyword k ∧ tokens = t :: rest := by
  have accepted (t : Token) : (if isKeyword k t then some () else none) = some () ↔ t.lexeme = .keyword k := by
    simp [isKeyword]
  simp only [keyword, one_eq_ok, accepted]

theorem lexemes_eq_cons {used : List Token} {l : Lexeme} {later : List Lexeme}
    (spelled : lexemes used = l :: later) :
    ∃ t rest, used = t :: rest ∧ t.lexeme = l ∧ lexemes rest = later := by
  obtain ⟨t, rest, rfl, first, others⟩ := List.map_eq_cons_iff.mp spelled
  exact ⟨t, rest, rfl, first, others⟩

theorem lexemes_eq_nil {used : List Token} (spelled : lexemes used = []) : used = [] :=
  List.map_eq_nil_iff.mp spelled

theorem lexemes_eq_append {used : List Token} {before later : List Lexeme}
    (spelled : lexemes used = before ++ later) :
    ∃ first rest, used = first ++ rest ∧ lexemes first = before ∧ lexemes rest = later := by
  obtain ⟨first, rest, rfl, left, right⟩ := List.map_eq_append_iff.mp spelled
  exact ⟨first, rest, rfl, left, right⟩

theorem arguments_of_bare {line : Int} {v : Verb} {tokens : List Token} (shape : v.shape = .bare) :
    arguments line v tokens = .ok ({ verb := v }, tokens) := by
  simp [arguments, shape]

theorem one_then_eq_ok {α β : Type} {line : Int} {expected : Expectation} {accept? : Token → Option α}
    (f : α → β) {tokens rest : List Token} {b : β} :
    (one line expected accept? tokens >>= fun read => pure (f read.1, read.2) : Read (β × List Token)) =
        .ok (b, rest) ↔
      ∃ t a, accept? t = some a ∧ tokens = t :: rest ∧ b = f a := by
  rw [Except.bind_eq_ok]
  constructor
  · intro given
    obtain ⟨⟨a, later⟩, taken, same⟩ := given
    obtain ⟨t, accepted, rfl⟩ := one_eq_ok.mp taken
    cases same
    exact ⟨t, a, accepted, rfl, rfl⟩
  · intro given
    obtain ⟨t, a, accepted, same, rfl⟩ := given
    exact ⟨(a, rest), one_eq_ok.mpr ⟨t, accepted, same⟩, rfl⟩

theorem arguments_of_argument {line : Int} {v : Verb} {tokens rest : List Token} {c : Command}
    (shape : v.shape = .argument) :
    arguments line v tokens = .ok (c, rest) ↔
      ∃ t p, param? t = some p ∧ tokens = t :: rest ∧ c = { verb := v, param := some p } := by
  simp only [arguments, shape]
  exact one_then_eq_ok fun p => ({ verb := v, param := some p } : Command)

theorem arguments_of_target {line : Int} {v : Verb} {tokens rest : List Token} {c : Command}
    (shape : v.shape = .target) :
    arguments line v tokens = .ok (c, rest) ↔
      ∃ t name, name? t = some name ∧ tokens = t :: rest ∧ c = { verb := v, target := some name } := by
  simp only [arguments, shape]
  exact one_then_eq_ok fun name => ({ verb := v, target := some name } : Command)

theorem command_eq_ok {line : Int} {handling : Bool} {tokens rest : List Token} {c : Command} :
    command line handling tokens = .ok (c, rest) ↔
      ∃ t v later, t.lexeme = .keyword (.verb v) ∧ tokens = t :: later ∧
        (v = .tryAgain → handling = true) ∧ arguments line v later = .ok (c, rest) := by
  unfold command
  rw [Except.bind_eq_ok]
  constructor
  · intro given
    obtain ⟨⟨v, later⟩, taken, read⟩ := given
    obtain ⟨t, accepted, rfl⟩ := one_eq_ok.mp taken
    simp only at read
    split at read
    · cases read
    · rename_i allowed
      refine ⟨t, v, later, verb?_eq_some.mp accepted, rfl, fun again => ?_, read⟩
      simpa [again] using allowed
  · intro given
    obtain ⟨t, v, later, spelled, same, allowed, read⟩ := given
    refine ⟨(v, later), one_eq_ok.mpr ⟨t, verb?_eq_some.mpr spelled, same⟩, ?_⟩
    have kept : ¬ (v = .tryAgain && !handling) = true := by simpa using allowed
    simp only
    rw [if_neg kept]
    exact read

theorem command_complete {line : Int} {handling : Bool} {used rest : List Token} {c : Command}
    (derivation : CommandOf handling (lexemes used) c) :
    command line handling (used ++ rest) = .ok (c, rest) := by
  generalize spelled : lexemes used = spelling at derivation
  cases derivation with
  | bare v shape allowed =>
    obtain ⟨t, none, rfl, verb, others⟩ := lexemes_eq_cons spelled
    cases lexemes_eq_nil others
    exact command_eq_ok.mpr ⟨t, v, rest, verb, rfl, allowed, arguments_of_bare shape⟩
  | argument v shape argument =>
    obtain ⟨t, more, rfl, verb, others⟩ := lexemes_eq_cons spelled
    obtain ⟨u, none, rfl, rfl, ended⟩ := lexemes_eq_cons others
    cases lexemes_eq_nil ended
    have allowed : v = .tryAgain → handling = true := by
      intro same
      subst same
      cases shape
    have read : arguments line v (u :: rest) = .ok (_, rest) :=
      (arguments_of_argument shape).mpr ⟨u, _, param?_complete argument, rfl, rfl⟩
    exact command_eq_ok.mpr ⟨t, v, u :: rest, verb, rfl, allowed, read⟩
  | target v shape identifier =>
    obtain ⟨t, more, rfl, verb, others⟩ := lexemes_eq_cons spelled
    obtain ⟨u, none, rfl, rfl, ended⟩ := lexemes_eq_cons others
    cases lexemes_eq_nil ended
    have allowed : v = .tryAgain → handling = true := by
      intro same
      subst same
      cases shape
    have read : arguments line v (u :: rest) = .ok (_, rest) :=
      (arguments_of_target shape).mpr ⟨u, _, name?_complete identifier, rfl, rfl⟩
    exact command_eq_ok.mpr ⟨t, v, u :: rest, verb, rfl, allowed, read⟩

theorem command_sound {line : Int} {handling : Bool} {tokens rest : List Token} {c : Command}
    (free : Free tokens) (read : command line handling tokens = .ok (c, rest)) :
    ∃ used, tokens = used ++ rest ∧ CommandOf handling (lexemes used) c := by
  obtain ⟨t, v, later, verb, rfl, allowed, read⟩ := command_eq_ok.mp read
  have freeLater := (free_of_cons free).2
  cases shape : v.shape with
  | bare =>
    rw [arguments_of_bare shape] at read
    cases read
    refine ⟨[t], rfl, ?_⟩
    rw [lexemes, List.map_singleton, verb]
    exact .bare v shape allowed
  | argument =>
    obtain ⟨u, p, accepted, rfl, rfl⟩ := (arguments_of_argument shape).mp read
    refine ⟨[t, u], rfl, ?_⟩
    rw [lexemes, List.map_cons, List.map_singleton, verb]
    exact .argument v shape (param?_sound (free_of_cons freeLater).1 accepted)
  | target =>
    obtain ⟨u, name, accepted, rfl, rfl⟩ := (arguments_of_target shape).mp read
    refine ⟨[t, u], rfl, ?_⟩
    rw [lexemes, List.map_cons, List.map_singleton, verb]
    exact .target v shape (name?_sound (free_of_cons freeLater).1 accepted)

def Ended (tokens : List Token) : Prop :=
  ∀ (t : Token) (later : List Token), tokens = t :: later → isKeyword .and t = false

theorem ended_nil : Ended [] := by
  intro t later same
  cases same

theorem sequence_of_last {line : Int} {handling : Bool} {tokens rest : List Token} {c : Command}
    (first : command line handling tokens = .ok (c, rest)) (ended : Ended rest) :
    sequence line handling tokens = .ok ([c], rest) := by
  rw [sequence.eq_def]
  split
  · rename_i failed
    cases first.symm.trans failed
  · rename_i read
    cases first.symm.trans read
    rfl
  · rename_i t later read
    cases first.symm.trans read
    have closed := ended t later rfl
    simp [closed]

theorem sequence_of_joined {line : Int} {handling : Bool} {tokens rest after : List Token} {c : Command}
    {cs : List Command} {t : Token} (first : command line handling tokens = .ok (c, t :: rest))
    (joined : isKeyword .and t = true) (more : sequence line handling rest = .ok (cs, after)) :
    sequence line handling tokens = .ok (c :: cs, after) := by
  rw [sequence.eq_def]
  split
  · rename_i failed
    cases first.symm.trans failed
  · rename_i read
    cases first.symm.trans read
  · rename_i u later read
    cases first.symm.trans read
    simp [joined, more]

theorem sequence_complete {line : Int} {handling : Bool} {used rest : List Token} {cs : List Command}
    (ended : Ended rest) (derivation : SequenceOf handling (lexemes used) cs) :
    sequence line handling (used ++ rest) = .ok (cs, rest) := by
  generalize spelled : lexemes used = spelling at derivation
  induction derivation generalizing used with
  | last derived =>
    rw [← spelled] at derived
    exact sequence_of_last (command_complete derived) ended
  | joined derived more ih =>
    obtain ⟨first, others, rfl, rfl, tail⟩ := lexemes_eq_append spelled
    obtain ⟨t, later, rfl, joined, rfl⟩ := lexemes_eq_cons tail
    have joins : isKeyword .and t = true := by simp [isKeyword, joined]
    rw [List.append_assoc]
    exact sequence_of_joined (command_complete derived) joins (ih rfl)

theorem sequence_sound {line : Int} {handling : Bool} {tokens rest : List Token} {cs : List Command}
    (free : Free tokens) (read : sequence line handling tokens = .ok (cs, rest)) :
    ∃ used, tokens = used ++ rest ∧ SequenceOf handling (lexemes used) cs := by
  fun_induction sequence line handling tokens generalizing cs rest with
  | case1 tokens e failed => cases read
  | case2 tokens c first =>
    cases read
    obtain ⟨used, rfl, derived⟩ := command_sound free first
    exact ⟨used, rfl, .last derived⟩
  | case3 tokens c t later first joins less e failed ih => cases read
  | case4 tokens c t later first joins less more after rest' ih =>
    cases read
    obtain ⟨used, rfl, derived⟩ := command_sound free first
    obtain ⟨used', rfl, derived'⟩ := ih (free_of_cons (free_of_append free)).2 rest'
    have joined : t.lexeme = .keyword .and := by simpa [isKeyword] using joins
    refine ⟨used ++ t :: used', by simp, ?_⟩
    rw [lexemes, List.map_append, List.map_cons, joined]
    exact .joined derived derived'
  | case5 tokens c t later first ends =>
    cases read
    obtain ⟨used, rfl, derived⟩ := command_sound free first
    exact ⟨used, rfl, .last derived⟩

theorem finish_eq_ok {α : Type} {line : Int} {a b : α} {tokens : List Token} :
    finish line a tokens = .ok b ↔ tokens = [] ∧ a = b := by
  cases tokens <;> simp [finish, refuse]

theorem closing_complete {line : Int} {handling : Bool} {make : List Command → Form}
    {tokens : List Token} {cs : List Command} (derivation : SequenceOf handling (lexemes tokens) cs) :
    closing line handling make tokens = .ok (make cs) := by
  have read : sequence line handling (tokens ++ []) = .ok (cs, []) := sequence_complete ended_nil derivation
  rw [List.append_nil] at read
  exact Except.bind_eq_ok.mpr ⟨(cs, []), read, rfl⟩

theorem closing_sound {line : Int} {handling : Bool} {make : List Command → Form} {tokens : List Token}
    {f : Form} (free : Free tokens) (read : closing line handling make tokens = .ok f) :
    ∃ cs, SequenceOf handling (lexemes tokens) cs ∧ f = make cs := by
  obtain ⟨⟨cs, rest⟩, body, closed⟩ := Except.bind_eq_ok.mp read
  obtain ⟨rfl, rfl⟩ := finish_eq_ok.mp closed
  obtain ⟨used, rfl, derived⟩ := sequence_sound free body
  rw [List.append_nil]
  exact ⟨cs, derived, rfl⟩

def quoted? (t : Token) : Option String :=
  match t.lexeme with
  | .quoted content => some content
  | _ => none

theorem quoted?_eq_some {t : Token} {content : String} :
    quoted? t = some content ↔ t.lexeme = .quoted content := by
  unfold quoted?
  cases t.lexeme <;> simp

theorem saving_eq (line : Int) (tokens : List Token) :
    saving line tokens = (one line .quotedValue quoted? tokens >>= fun read =>
      keyword line .as read.2 >>= fun read' =>
        one line .variableName name? read'.2 >>= fun read'' =>
          finish line (.save read.1 read''.1) read''.2) := rfl

theorem saving_eq_ok {line : Int} {tokens : List Token} {f : Form} :
    saving line tokens = .ok f ↔
      ∃ t value u w name, t.lexeme = .quoted value ∧ u.lexeme = .keyword .as ∧ name? w = some name ∧
        tokens = [t, u, w] ∧ f = .save value name := by
  rw [saving_eq]
  constructor
  · intro read
    obtain ⟨⟨value, later⟩, first, read⟩ := Except.bind_eq_ok.mp read
    obtain ⟨⟨_, later'⟩, second, read⟩ := Except.bind_eq_ok.mp read
    obtain ⟨⟨name, later''⟩, third, closed⟩ := Except.bind_eq_ok.mp read
    obtain ⟨t, accepted, rfl⟩ := one_eq_ok.mp first
    obtain ⟨u, joins, rfl⟩ := keyword_eq_ok.mp second
    obtain ⟨w, named, rfl⟩ := one_eq_ok.mp third
    obtain ⟨rfl, rfl⟩ := finish_eq_ok.mp closed
    exact ⟨t, value, u, w, name, quoted?_eq_some.mp accepted, joins, named, rfl, rfl⟩
  · intro given
    obtain ⟨t, value, u, w, name, quoted, joins, named, rfl, rfl⟩ := given
    refine Except.bind_eq_ok.mpr ⟨(value, [u, w]), one_eq_ok.mpr ⟨t, quoted?_eq_some.mpr quoted, rfl⟩, ?_⟩
    refine Except.bind_eq_ok.mpr ⟨((), [w]), keyword_eq_ok.mpr ⟨u, joins, rfl⟩, ?_⟩
    exact Except.bind_eq_ok.mpr ⟨(name, []), one_eq_ok.mpr ⟨w, named, rfl⟩, rfl⟩

theorem command_begins {handling : Bool} {spelling : List Lexeme} {c : Command}
    (derivation : CommandOf handling spelling c) : ∃ v later, spelling = .keyword (.verb v) :: later := by
  cases derivation <;> exact ⟨_, _, rfl⟩

theorem sequence_begins {handling : Bool} {spelling : List Lexeme} {cs : List Command}
    (derivation : SequenceOf handling spelling cs) :
    ∃ v later, spelling = .keyword (.verb v) :: later := by
  cases derivation with
  | last derived => exact command_begins derived
  | joined derived more =>
    obtain ⟨v, later, rfl⟩ := command_begins derived
    exact ⟨v, _, rfl⟩

theorem form_complete {line : Int} {first : Token} {rest : List Token} {f : Form}
    (derivation : FormOf (lexemes (first :: rest)) f) : form line first rest = .ok f := by
  generalize spelled : lexemes (first :: rest) = spelling at derivation
  unfold form
  cases derivation with
  | comment text =>
    obtain ⟨leading, -⟩ := List.cons_eq_cons.mp spelled
    simp only [leading]
  | save value identifier =>
    obtain ⟨leading, tail⟩ := List.cons_eq_cons.mp spelled
    obtain ⟨t, _, rfl, quoted, tail⟩ := lexemes_eq_cons tail
    obtain ⟨u, _, rfl, joins, tail⟩ := lexemes_eq_cons tail
    obtain ⟨w, _, rfl, rfl, ended⟩ := lexemes_eq_cons tail
    cases lexemes_eq_nil ended
    simp only [leading]
    exact saving_eq_ok.mpr ⟨t, value, u, w, _, quoted, joins, name?_complete identifier, rfl, rfl⟩
  | conditional predicate body =>
    obtain ⟨leading, tail⟩ := List.cons_eq_cons.mp spelled
    obtain ⟨used, others, rfl, rfl, more⟩ := lexemes_eq_append tail
    obtain ⟨t, later, rfl, joins, rfl⟩ := lexemes_eq_cons more
    simp only [leading]
    refine Except.bind_eq_ok.mpr ⟨_, command_complete predicate, ?_⟩
    exact Except.bind_eq_ok.mpr ⟨((), later), keyword_eq_ok.mpr ⟨t, joins, rfl⟩, closing_complete body⟩
  | handler body =>
    obtain ⟨leading, rfl⟩ := List.cons_eq_cons.mp spelled
    simp only [leading]
    exact closing_complete body
  | under anchor body =>
    obtain ⟨leading, tail⟩ := List.cons_eq_cons.mp spelled
    obtain ⟨t, later, rfl, rfl, rfl⟩ := lexemes_eq_cons tail
    simp only [leading]
    refine Except.bind_eq_ok.mpr ⟨(_, later), one_eq_ok.mpr ⟨t, param?_complete anchor, rfl⟩, ?_⟩
    exact closing_complete body
  | underActive body =>
    obtain ⟨leading, rfl⟩ := List.cons_eq_cons.mp spelled
    simp only [leading]
    exact closing_complete body
  | run body =>
    obtain ⟨v, later, begins⟩ := sequence_begins body
    obtain ⟨leading, -⟩ := List.cons_eq_cons.mp (spelled.trans begins)
    rw [← spelled] at body
    simp only [leading]
    exact closing_complete body

/-- A comment must be alone on its line, as it is on a line that has been scanned. -/
theorem form_sound {line : Int} {first : Token} {rest : List Token} {f : Form}
    (free : Free (first :: rest)) (alone : first.isComment = true → rest = [])
    (read : form line first rest = .ok f) : FormOf (lexemes (first :: rest)) f := by
  have freeRest := (free_of_cons free).2
  unfold form at read
  split at read
  · rename_i text leading
    cases read
    rw [alone (by simp [Token.isComment, leading])]
    rw [lexemes, List.map_singleton, leading]
    exact .comment text
  · rename_i leading
    obtain ⟨t, value, u, w, name, quoted, joins, named, rfl, rfl⟩ := saving_eq_ok.mp read
    have identifier := name?_sound (freeRest w (by simp)) named
    simp only [lexemes, List.map_cons, List.map_nil, leading, quoted, joins]
    exact .save value identifier
  · rename_i leading
    obtain ⟨⟨c, later⟩, predicate, goesOn⟩ := Except.bind_eq_ok.mp read
    obtain ⟨⟨_, later'⟩, thereupon, ends⟩ := Except.bind_eq_ok.mp goesOn
    obtain ⟨used, rfl, derived⟩ := command_sound freeRest predicate
    obtain ⟨t, joins, rfl⟩ := keyword_eq_ok.mp thereupon
    have freeLater := (free_of_cons (free_of_append freeRest)).2
    obtain ⟨cs, body, rfl⟩ := closing_sound freeLater ends
    simp only [lexemes, List.map_cons, List.map_append, leading, joins]
    exact .conditional derived body
  · rename_i leading
    obtain ⟨cs, body, rfl⟩ := closing_sound freeRest read
    rw [lexemes, List.map_cons, leading]
    exact .handler body
  · rename_i leading
    obtain ⟨⟨p, later⟩, anchor, ends⟩ := Except.bind_eq_ok.mp read
    obtain ⟨t, accepted, rfl⟩ := one_eq_ok.mp anchor
    obtain ⟨cs, body, rfl⟩ := closing_sound (free_of_cons freeRest).2 ends
    rw [lexemes, List.map_cons, List.map_cons, leading]
    exact .under (param?_sound (free_of_cons freeRest).1 accepted) body
  · rename_i leading
    obtain ⟨cs, body, rfl⟩ := closing_sound freeRest read
    rw [lexemes, List.map_cons, leading]
    exact .underActive body
  · obtain ⟨cs, body, rfl⟩ := closing_sound free read
    exact .run body

theorem lexemes_map (line : Int) (spelling : List Lexeme) : lexemes (spelling.map (⟨·, line⟩)) = spelling := by
  induction spelling with
  | nil => rfl
  | cons l later ih => exact congrArg (l :: ·) ih

theorem form_unique {spelling : List Lexeme} {f g : Form} (left : FormOf spelling f)
    (right : FormOf spelling g) : f = g := by
  cases spelling with
  | nil =>
    cases left with
    | run body =>
      obtain ⟨v, later, begins⟩ := sequence_begins body
      cases begins
  | cons l later =>
    rw [← lexemes_map 0 (l :: later), List.map_cons] at left right
    have read : form 0 ⟨l, 0⟩ (later.map (⟨·, 0⟩)) = .ok f := form_complete left
    have read' : form 0 ⟨l, 0⟩ (later.map (⟨·, 0⟩)) = .ok g := form_complete right
    exact Except.ok.inj (read.symm.trans read')

end Grammar
end Walkthrough
