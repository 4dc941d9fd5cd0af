import Walkthrough.Proofs.Script.Grouping

/-!
Where a line that cannot be read is refused. A reader stops at the first token after which no continuation can be
right: what it has read before that token can be continued to what it reads, and together with that token it cannot
(`Refuses`). Each reader is looked at within the statement it reads a part of, so the language it is measured by holds
all that can still come.
-/
namespace Walkthrough.Grammar

/-! ### Texts that can be continued -/

def Language : Type := List Lexeme → Prop

/-- Some lexemes that can be written lead on from these to a text of the language. -/
def Viable (language : Language) (begun : List Lexeme) : Prop :=
  ∃ more, (∀ l ∈ more, l.Written) ∧ language (begun ++ more)

/-- What can stand behind `begun`. -/
def Language.after (language : Language) (begun : List Lexeme) : Language := fun more => language (begun ++ more)

/-- The lexeme, and behind it a text of the language. -/
def Language.led (l : Lexeme) (language : Language) : Language := fun x => ∃ later, x = l :: later ∧ language later

variable {language : Language} {begun more : List Lexeme}

theorem after_led (l : Lexeme) : (language.led l).after [l] = language := by
  funext x
  refine propext ⟨?_, fun derived => ⟨x, rfl, derived⟩⟩
  rintro ⟨later, same, derived⟩
  obtain rfl : x = later := (List.cons.inj same).2
  exact derived

theorem after_append (used later : List Lexeme) : language.after (used ++ later) = (language.after used).after later := by
  funext x
  unfold Language.after
  rw [List.append_assoc]

theorem viable_of_mem (derived : language begun) : Viable language begun :=
  ⟨[], List.forall_mem_nil _, (List.append_nil begun).symm ▸ derived⟩

theorem Viable.of_append (written : ∀ l ∈ more, l.Written) (viable : Viable language (begun ++ more)) :
    Viable language begun := by
  obtain ⟨later, others, derived⟩ := viable
  exact ⟨more ++ later, List.forall_mem_append.mpr ⟨written, others⟩, List.append_assoc begun more later ▸ derived⟩

theorem viable_after : Viable (language.after begun) more ↔ Viable language (begun ++ more) := by
  unfold Viable Language.after
  simp only [List.append_assoc]

/-- The tokens are refused at the first of them that cannot go on, or, where all of them can, because they run out. -/
inductive Refuses (language : Language) (line : Int) (tokens : List Token) (e : SyntaxError) : Prop where
  | token (before : List Token) (t : Token) (after : List Token) (split : tokens = before ++ t :: after)
      (place : e.line = t.line) (found : e.found = .text t.text) (viable : Viable language (lexemes before))
      (stuck : ¬ Viable language (lexemes (before ++ [t])))
  | short (place : e.line = line) (found : e.found = .endOfLine) (viable : Viable language (lexemes tokens))

theorem lexemes_append (used rest : List Token) : lexemes (used ++ rest) = lexemes used ++ lexemes rest :=
  List.map_append

variable {line : Int} {tokens : List Token} {e : SyntaxError}

/-- What is refused behind tokens is refused with them. -/
theorem Refuses.behind (used : List Token) (refuses : Refuses (language.after (lexemes used)) line tokens e) :
    Refuses language line (used ++ tokens) e := by
  cases refuses with
  | token before t after split place found viable stuck =>
    refine .token (used ++ before) t after (by rw [split, List.append_assoc]) place found ?_ ?_
    · rw [lexemes_append]
      exact viable_after.mp viable
    · rw [List.append_assoc, lexemes_append]
      exact fun wrong => stuck (viable_after.mpr wrong)
  | short place found viable =>
    refine .short place found ?_
    rw [lexemes_append]
    exact viable_after.mp viable

theorem Refuses.cons {first : Token} {rest : List Token} {l : Lexeme} (leading : first.lexeme = l)
    (refuses : Refuses (language.after [l]) line rest e) : Refuses language line (first :: rest) e := by
  rw [← leading] at refuses
  exact refuses.behind [first]

/-- Two languages that agree on all that begins with a token refuse the same lines that begin with it. -/
theorem Refuses.of_head {other : Language} {first : Token} {rest : List Token}
    (same : ∀ x, language (first.lexeme :: x) ↔ other (first.lexeme :: x)) (possible : Viable other [])
    (refuses : Refuses language line (first :: rest) e) : Refuses other line (first :: rest) e := by
  have alike (before : List Token) : Viable language (lexemes (first :: before)) ↔
      Viable other (lexemes (first :: before)) := exists_congr fun x => and_congr_right fun _ => same _
  cases refuses with
  | token before t after split place found viable stuck =>
    cases before with
    | nil =>
      obtain ⟨rfl, rfl⟩ := List.cons.inj split
      exact .token [] first rest rfl place found possible fun wrong => stuck ((alike []).mpr wrong)
    | cons u before =>
      obtain ⟨rfl, rfl⟩ := List.cons.inj split
      exact .token _ t after rfl place found ((alike before).mp viable) fun wrong =>
        stuck ((alike (before ++ [t])).mpr wrong)
  | short place found viable => exact .short place found ((alike rest).mp viable)

/-! ### Single tokens -/

theorem refuses_of_refuse {α : Type} {expected : Expectation} (possible : Viable language [])
    (stuck : ∀ t rest, tokens = t :: rest → ¬ Viable language [t.lexeme])
    (stopped : (refuse line expected tokens : Read α) = .error e) : Refuses language line tokens e := by
  cases tokens with
  | nil =>
    cases stopped
    exact .short rfl rfl possible
  | cons t rest =>
    cases stopped
    exact .token [] t rest rfl rfl rfl possible (stuck t rest rfl)

theorem refuses_of_one {α : Type} {expected : Expectation} {accept? : Token → Option α} (possible : Viable language [])
    (accepts : ∀ t more, language (t.lexeme :: more) → ∃ a, accept? t = some a)
    (stopped : one line expected accept? tokens = .error e) : Refuses language line tokens e := by
  unfold one at stopped
  split at stopped
  · exact refuses_of_refuse possible (fun t rest same => by cases same) stopped
  · next t rest =>
    split at stopped
    · cases stopped
    · next refused =>
      refine refuses_of_refuse possible (fun u rest same viable => ?_) stopped
      obtain ⟨rfl, rfl⟩ := List.cons.inj same
      obtain ⟨more, -, derived⟩ := viable
      obtain ⟨a, accepted⟩ := accepts t more derived
      rw [refused] at accepted
      cases accepted

theorem refuses_of_keyword {k : Keyword} (possible : Viable language [])
    (leads : ∀ l more, language (l :: more) → l = .keyword k)
    (stopped : keyword line k tokens = .error e) : Refuses language line tokens e := by
  refine refuses_of_one possible (fun t more derived => ⟨(), ?_⟩) stopped
  simp [isKeyword, leads t.lexeme more derived]

theorem refuses_of_finish {α : Type} {a : α} (possible : Viable language [])
    (ends : ∀ l more, ¬ language (l :: more)) (stopped : finish line a tokens = .error e) :
    Refuses language line tokens e := by
  cases tokens with
  | nil => cases stopped
  | cons t rest =>
    refine refuses_of_refuse possible (fun u rest same viable => ?_) stopped
    obtain ⟨more, -, derived⟩ := viable
    exact ends u.lexeme more derived

/-! ### Commands -/

theorem written_keyword (k : Keyword) : ∀ l ∈ [Lexeme.keyword k], l.Written :=
  List.forall_mem_singleton.mpr (trivial : (Lexeme.keyword k).Written)

theorem written_it : ∀ l ∈ [Lexeme.word "it"], l.Written :=
  List.forall_mem_singleton.mpr (trivial : (Lexeme.word "it").Written)

theorem written_empty : ∀ l ∈ [Lexeme.quoted ""], l.Written :=
  List.forall_mem_singleton.mpr ⟨List.forall_mem_nil _, List.forall_mem_nil _⟩

theorem command_verb {handling : Bool} {v : Verb} {later : List Lexeme} {c : Command}
    (derivation : CommandOf handling (.keyword (.verb v) :: later) c) :
    (v = .tryAgain → handling = true) ∧ (v.shape = .argument → ∃ l, later = [l] ∧ ∃ p, Argument l p) ∧
      (v.shape = .target → ∃ l, later = [l] ∧ ∃ name, Identifier l name) := by
  cases derivation with
  | bare v shape allowed => exact ⟨allowed, by simp [shape], by simp [shape]⟩
  | argument v shape argument =>
    refine ⟨?_, fun _ => ⟨_, rfl, _, argument⟩, by simp [shape]⟩
    rintro rfl
    cases shape
  | target v shape identifier =>
    refine ⟨?_, by simp [shape], fun _ => ⟨_, rfl, _, identifier⟩⟩
    rintro rfl
    cases shape

/-- All texts of the language begin with a command, and any command can begin one. -/
structure Leads (handling : Bool) (language : Language) : Prop where
  command : ∀ x, language x → ∃ used later c, x = used ++ later ∧ CommandOf handling used c
  viable : ∀ used c, CommandOf handling used c → Viable language used

theorem Leads.possible {handling : Bool} (leads : Leads handling language) : Viable language [] := by
  have click : Viable language ([] ++ [.keyword (.verb .click)]) :=
    leads.viable _ _ (.bare .click rfl fun same => by cases same)
  exact click.of_append (written_keyword (.verb .click))

/-- A text of the language that begins with a verb goes on with what the verb asks for. -/
theorem Leads.verb {handling : Bool} {v : Verb} (leads : Leads handling language)
    (derived : language (.keyword (.verb v) :: more)) : ∃ used later c, more = used ++ later ∧
      CommandOf handling (.keyword (.verb v) :: used) c := by
  obtain ⟨used, later, c, split, derivation⟩ := leads.command _ derived
  obtain ⟨w, used', rfl⟩ := command_begins derivation
  obtain ⟨same, rest⟩ := List.cons.inj split
  rw [← same] at derivation
  exact ⟨used', later, c, rest, derivation⟩

/-- What stands behind a verb that asks for one lexeme. -/
theorem Leads.operand {handling : Bool} {v : Verb} {l : Lexeme} {P : Lexeme → Prop} (leads : Leads handling language)
    (asks : ∀ used c, CommandOf handling (.keyword (.verb v) :: used) c → ∃ l, used = [l] ∧ P l)
    (derived : language.after [.keyword (.verb v)] (l :: more)) : P l := by
  obtain ⟨used, later, c, split, derivation⟩ := leads.verb derived
  obtain ⟨m, rfl, holds⟩ := asks used c derivation
  rwa [(List.cons.inj split).1]

theorem one_then_eq_error {α β : Type} {expected : Expectation} {accept? : Token → Option α} (f : α → β)
    (stopped : (one line expected accept? tokens >>= fun read => pure (f read.1, read.2) : Read (β × List Token)) =
      .error e) : one line expected accept? tokens = .error e := by
  rcases Except.bind_eq_error.mp stopped with stopped | ⟨read, -, done⟩
  · exact stopped
  · cases done

theorem identifier_it : Identifier (.word "it") "it" := by
  refine .word "it" (by decide) fun k same => ?_
  have known := Keyword.ofText?_text k
  rw [same, show Keyword.ofText? "it" = none by decide] at known
  cases known

theorem refuses_of_arguments {handling : Bool} {v : Verb} (leads : Leads handling language)
    (stopped : arguments line v tokens = .error e) :
    Refuses (language.after [.keyword (.verb v)]) line tokens e := by
  have begun {l : Lexeme} {c : Command} (written : ∀ m ∈ [l], m.Written)
      (derivation : CommandOf handling [.keyword (.verb v), l] c) : Viable (language.after [.keyword (.verb v)]) [] :=
    viable_after.mpr ((leads.viable [.keyword (.verb v), l] c derivation).of_append written)
  cases shape : v.shape with
  | bare =>
    rw [arguments_of_bare shape] at stopped
    cases stopped
  | argument =>
    simp only [arguments, shape] at stopped
    refine refuses_of_one (begun written_empty (.argument v shape (.quoted ""))) (fun t more derived => ?_)
      (one_then_eq_error (fun p => ({ verb := v, param := some p } : Command)) stopped)
    obtain ⟨p, argument⟩ : ∃ p, Argument t.lexeme p :=
      leads.operand (P := fun l => ∃ p, Argument l p) (fun _ _ spelled => (command_verb spelled).2.1 shape) derived
    exact ⟨p, param?_complete argument⟩
  | target =>
    simp only [arguments, shape] at stopped
    refine refuses_of_one (begun written_it (.target v shape identifier_it)) (fun t more derived => ?_)
      (one_then_eq_error (fun name => ({ verb := v, target := some name } : Command)) stopped)
    obtain ⟨name, identifier⟩ : ∃ name, Identifier t.lexeme name :=
      leads.operand (P := fun l => ∃ name, Identifier l name) (fun _ _ spelled => (command_verb spelled).2.2 shape)
        derived
    exact ⟨name, name?_complete identifier⟩

theorem refuses_of_command {handling : Bool} (leads : Leads handling language)
    (stopped : command line handling tokens = .error e) : Refuses language line tokens e := by
  rcases Except.bind_eq_error.mp stopped with stopped | ⟨⟨v, rest⟩, taken, stopped⟩
  · refine refuses_of_one leads.possible (fun t more derived => ?_) stopped
    obtain ⟨used, later, c, split, derivation⟩ := leads.command _ derived
    obtain ⟨v, others, rfl⟩ := command_begins derivation
    exact ⟨v, verb?_eq_some.mpr (List.cons.inj split).1⟩
  · obtain ⟨t, accepted, rfl⟩ := one_eq_ok.mp taken
    have verb := verb?_eq_some.mp accepted
    simp only at stopped
    split at stopped
    · next refused =>
      -- Running again is refused at its verb, which no command here begins with.
      refine refuses_of_refuse leads.possible (fun u others same viable => ?_) stopped
      obtain ⟨rfl, rfl⟩ := List.cons.inj same
      obtain ⟨more, -, derived⟩ := viable
      rw [verb] at derived
      obtain ⟨used, later, c, -, derivation⟩ := leads.verb derived
      obtain ⟨again, unhandled⟩ := Bool.and_eq_true_iff.mp refused
      have handled := (command_verb derivation).1 (of_decide_eq_true again)
      simp [handled] at unhandled
    · exact .cons verb (refuses_of_arguments leads stopped)

/-! ### Sequences -/

/-- Commands that are joined. -/
def Sequence (handling : Bool) : Language := fun x => ∃ cs, SequenceOf handling x cs

theorem leads_sequence (handling : Bool) : Leads handling (Sequence handling) where
  command x sequence := by
    obtain ⟨cs, derivation⟩ := sequence
    cases derivation with
    | last command => exact ⟨x, [], _, (List.append_nil x).symm, command⟩
    | joined command more => exact ⟨_, _, _, rfl, command⟩
  viable used c command := viable_of_mem ⟨[c], .last command⟩

/-- No command is the beginning of another. -/
theorem command_split {handling : Bool} {used used' x x' : List Lexeme} {c c' : Command}
    (left : CommandOf handling used c) (right : CommandOf handling used' c') (same : used ++ x = used' ++ x') :
    used = used' ∧ x = x' := by
  have taken {first later : List Lexeme} {d : Command} (derivation : CommandOf handling first d) :
      command 0 handling ((first ++ later).map (⟨·, 0⟩)) = .ok (d, later.map (⟨·, 0⟩)) := by
    rw [List.map_append]
    exact command_complete ((lexemes_map 0 first).symm ▸ derivation)
  have read : command 0 handling ((used ++ x).map (⟨·, 0⟩)) = .ok (c, x.map (⟨·, 0⟩)) := taken left
  rw [same, taken right, Except.ok.injEq, Prod.mk.injEq] at read
  have rest : x' = x := by simpa only [lexemes_map] using congrArg lexemes read.2
  exact ⟨List.append_cancel_right (rest ▸ same), rest.symm⟩

theorem sequence_after {handling : Bool} {used : List Lexeme} {c : Command} (command : CommandOf handling used c) :
    (Sequence handling).after used = fun x => x = [] ∨ (Sequence handling).led (.keyword .and) x := by
  funext x
  refine propext ⟨?_, ?_⟩
  · rintro ⟨cs, derivation⟩
    generalize whole : used ++ x = spelling at derivation
    cases derivation with
    | last command' =>
      refine Or.inl (command_split command command' ?_).2
      rw [whole, List.append_nil]
    | joined command' more =>
      exact Or.inr ⟨_, (command_split command command' whole).2, _, more⟩
  · rintro (rfl | ⟨y, rfl, cs, more⟩)
    · exact ⟨[c], (List.append_nil used).symm ▸ .last command⟩
    · exact ⟨c :: cs, .joined command more⟩

/-- A sequence goes on behind a command that is joined with what follows. -/
theorem sequence_after_and {handling : Bool} {used : List Token} {t : Token} {c : Command}
    (command : CommandOf handling (lexemes used) c) (joins : isKeyword .and t = true) :
    (Sequence handling).after (lexemes (used ++ [t])) = Sequence handling := by
  have joined : t.lexeme = .keyword .and := by simpa [isKeyword] using joins
  rw [lexemes_append, after_append, sequence_after command, lexemes, List.map_singleton, joined]
  funext x
  simp [Language.after, Language.led]

theorem refuses_of_sequence {handling : Bool} (free : Free tokens)
    (stopped : sequence line handling tokens = .error e) : Refuses (Sequence handling) line tokens e := by
  fun_induction sequence line handling tokens with
  | case1 tokens e' failed =>
    cases stopped
    exact refuses_of_command (leads_sequence handling) failed
  | case2 tokens c first => cases stopped
  | case3 tokens c t later first joins less e' failed ih =>
    cases stopped
    obtain ⟨used, rfl, command⟩ := command_sound free first
    have refuses := ih (free_of_cons (free_of_append free)).2 failed
    rw [← sequence_after_and command joins] at refuses
    simpa using refuses.behind (used ++ [t])
  | case4 tokens c t later first joins less cs after rest ih => cases stopped
  | case5 tokens c t later first ends => cases stopped

/-- Where the reader of a sequence leaves a token, the sequence cannot go on with it. -/
theorem sequence_stops {handling : Bool} {t : Token} {rest : List Token} {cs : List Command} (free : Free tokens)
    (read : sequence line handling tokens = .ok (cs, t :: rest)) :
    ∃ used, tokens = used ++ t :: rest ∧ Viable (Sequence handling) (lexemes used) ∧
      ¬ Viable (Sequence handling) (lexemes (used ++ [t])) := by
  fun_induction sequence line handling tokens generalizing cs rest t with
  | case1 tokens e' failed => cases read
  | case2 tokens c first => cases read
  | case3 tokens c u later first joins less e' failed ih => cases read
  | case4 tokens c u later first joins less cs after more ih =>
    cases read
    obtain ⟨used, rfl, command⟩ := command_sound free first
    obtain ⟨used', rfl, viable, stuck⟩ := ih (free_of_cons (free_of_append free)).2 more
    rw [← sequence_after_and command joins, viable_after, ← lexemes_append] at viable stuck
    refine ⟨used ++ [u] ++ used', by simp, viable, ?_⟩
    rwa [List.append_assoc]
  | case5 tokens c u later first ends =>
    cases read
    obtain ⟨used, rfl, command⟩ := command_sound free first
    refine ⟨used, rfl, (leads_sequence handling).viable _ _ command, fun viable => ?_⟩
    rw [lexemes_append, ← viable_after, sequence_after command] at viable
    obtain ⟨more, -, none | ⟨y, joined, -⟩⟩ := viable
    · cases none
    · have joins : u.lexeme = .keyword .and := (List.cons.inj joined).1
      exact ends (by simp [isKeyword, joins])

theorem refuses_of_closing {handling : Bool} {make : List Command → Form} (free : Free tokens)
    (stopped : closing line handling make tokens = .error e) : Refuses (Sequence handling) line tokens e := by
  rcases Except.bind_eq_error.mp stopped with stopped | ⟨⟨cs, rest⟩, read, stopped⟩
  · exact refuses_of_sequence free stopped
  · cases rest with
    | nil => cases stopped
    | cons t rest =>
      cases stopped
      obtain ⟨used, split, viable, stuck⟩ := sequence_stops free read
      exact .token used t rest split rfl rfl viable stuck

/-! ### Forms -/

/-- What stands behind the keyword of a saved value. -/
def Saved : Language := fun x => ∃ value l name, Identifier l name ∧ x = [.quoted value, .keyword .as, l]

theorem saved_it (value : String) : Viable Saved [.quoted value, .keyword .as, .word "it"] :=
  viable_of_mem ⟨value, _, "it", identifier_it, rfl⟩

theorem refuses_of_saving (free : Free tokens) (stopped : saving line tokens = .error e) :
    Refuses Saved line tokens e := by
  rw [saving_eq] at stopped
  have as_it : ∀ l ∈ [Lexeme.keyword .as, .word "it"], l.Written :=
    List.forall_mem_cons.mpr ⟨trivial, written_it⟩
  rcases Except.bind_eq_error.mp stopped with missing | ⟨⟨value, later⟩, first, goesOn⟩
  · have begun : Viable Saved ([] ++ [.quoted ""]) := (saved_it "").of_append as_it
    refine refuses_of_one (begun.of_append written_empty) (fun t more derived => ?_) missing
    obtain ⟨value, l, name, -, split⟩ := derived
    exact ⟨value, quoted?_eq_some.mpr (List.cons.inj split).1⟩
  obtain ⟨t, accepted, rfl⟩ := one_eq_ok.mp first
  have quoted := quoted?_eq_some.mp accepted
  rcases Except.bind_eq_error.mp goesOn with missing | ⟨⟨_, later'⟩, second, goesOn'⟩
  · refine .cons quoted ?_
    refine refuses_of_keyword (viable_after.mpr ((saved_it value).of_append as_it)) (fun l more derived => ?_) missing
    obtain ⟨value', l', name, -, split⟩ := derived
    cases split
    rfl
  obtain ⟨u, joins, rfl⟩ := keyword_eq_ok.mp second
  rcases Except.bind_eq_error.mp goesOn' with missing | ⟨⟨name, later''⟩, third, goesOn''⟩
  · refine .cons quoted (.cons joins ?_)
    rw [← after_append]
    refine refuses_of_one (viable_after.mpr ((saved_it value).of_append written_it)) (fun w more derived => ?_) missing
    obtain ⟨value', l, name, identifier, split⟩ := derived
    have same : w.lexeme = l := by
      cases split
      rfl
    exact ⟨name, name?_complete (same ▸ identifier)⟩
  obtain ⟨w, named, rfl⟩ := one_eq_ok.mp third
  have identifier := name?_sound (free w (by simp)) named
  refine .cons quoted (.cons joins (.cons rfl ?_))
  rw [← after_append, ← after_append]
  refine refuses_of_finish (viable_after.mpr (viable_of_mem ⟨value, _, name, identifier, rfl⟩)) ?_ goesOn''
  rintro l more ⟨value', l', name', -, split⟩
  cases split

/-- What stands behind the keyword of a condition. -/
def Conditional : Language :=
  fun x => ∃ used c later, CommandOf false used c ∧ Sequence false later ∧ x = used ++ .keyword .thereupon :: later

/-- What stands behind the keyword of an anchor. -/
def Anchored : Language := fun x => ∃ l p later, Argument l p ∧ Sequence false later ∧ x = l :: later

theorem sequence_click (handling : Bool) : Sequence handling [.keyword (.verb .click)] :=
  ⟨_, .last (.bare .click rfl fun same => by cases same)⟩

theorem leads_conditional : Leads false Conditional where
  command x derived := by
    obtain ⟨used, c, later, command, -, rfl⟩ := derived
    exact ⟨used, _, c, rfl, command⟩
  viable used c command :=
    ⟨[.keyword .thereupon, .keyword (.verb .click)], List.forall_mem_cons.mpr ⟨trivial, written_keyword _⟩,
      used, c, _, command, sequence_click false, rfl⟩

theorem conditional_after {used : List Lexeme} {c : Command} (command : CommandOf false used c) :
    Conditional.after used = (Sequence false).led (.keyword .thereupon) := by
  funext x
  refine propext ⟨?_, ?_⟩
  · rintro ⟨used', c', later, command', body, same⟩
    exact ⟨later, (command_split command command' same).2, body⟩
  · rintro ⟨later, rfl, body⟩
    exact ⟨used, c, later, command, body, rfl⟩

theorem refuses_of_conditional {make : Command → List Command → Form} (free : Free tokens)
    (stopped : (command line false tokens >>= fun read => keyword line .thereupon read.2 >>= fun read' =>
      closing line false (make read.1) read'.2) = .error e) : Refuses Conditional line tokens e := by
  rcases Except.bind_eq_error.mp stopped with missing | ⟨⟨c, later⟩, first, goesOn⟩
  · exact refuses_of_command leads_conditional missing
  obtain ⟨used, rfl, command⟩ := command_sound free first
  refine Refuses.behind used ?_
  rw [conditional_after command]
  rcases Except.bind_eq_error.mp goesOn with missing | ⟨⟨_, later'⟩, second, goesOn'⟩
  · have possible : Viable (Conditional.after (lexemes used)) [] := by
      refine viable_after.mpr ?_
      rw [List.append_nil]
      exact leads_conditional.viable _ _ command
    rw [conditional_after command] at possible
    refine refuses_of_keyword possible (fun l more derived => ?_) missing
    obtain ⟨later, split, -⟩ := derived
    exact (List.cons.inj split).1
  obtain ⟨t, joins, rfl⟩ := keyword_eq_ok.mp second
  refine .cons joins ?_
  rw [after_led]
  exact refuses_of_closing (free_of_cons (free_of_append free)).2 goesOn'

theorem anchored_after {l : Lexeme} {p : Param} (anchor : Argument l p) :
    Anchored.after [l] = Sequence false := by
  funext x
  refine propext ⟨?_, ?_⟩
  · rintro ⟨l', p', later, -, body, same⟩
    obtain rfl : x = later := (List.cons.inj same).2
    exact body
  · exact fun body => ⟨l, p, x, anchor, body, rfl⟩

theorem refuses_of_anchored (make : Param → List Command → Form) (free : Free tokens)
    (stopped : (param line tokens >>= fun read => closing line false (make read.1) read.2) = .error e) :
    Refuses Anchored line tokens e := by
  rcases Except.bind_eq_error.mp stopped with missing | ⟨⟨p, later⟩, first, goesOn⟩
  · have possible : Viable Anchored [] :=
      ⟨[.quoted "", .keyword (.verb .click)],
        List.forall_mem_append.mpr ⟨written_empty, written_keyword _⟩,
        _, _, _, .quoted "", sequence_click false, rfl⟩
    refine refuses_of_one possible (fun t more derived => ?_) missing
    obtain ⟨l, p, later, anchor, -, split⟩ := derived
    exact ⟨p, param?_complete ((List.cons.inj split).1 ▸ anchor)⟩
  obtain ⟨t, accepted, rfl⟩ := one_eq_ok.mp first
  refine .cons rfl ?_
  rw [anchored_after (param?_sound (free_of_cons free).1 accepted)]
  exact refuses_of_closing (free_of_cons free).2 goesOn

/-- The spellings of statements. -/
def Stated : Language := fun x => ∃ f, FormOf x f

/-- What stands behind the first keyword of a statement. -/
def Behind : Keyword → Language
  | .save => Saved
  | .conditional => Conditional
  | .catchError => Sequence true
  | .under => Anchored
  | .underActiveElement => Sequence false
  | k => fun x => Sequence false (.keyword k :: x)

theorem stated_after (k : Keyword) : Stated.after [.keyword k] = Behind k := by
  funext x
  refine propext ⟨?_, ?_⟩
  · rintro ⟨f, derivation⟩
    generalize spelled : [Lexeme.keyword k] ++ x = spelling at derivation
    cases derivation with
    | comment text => cases spelled
    | save value identifier =>
      cases spelled
      exact ⟨value, _, _, identifier, rfl⟩
    | conditional predicate body =>
      cases spelled
      exact ⟨_, _, _, predicate, ⟨_, body⟩, rfl⟩
    | handler body =>
      cases spelled
      exact ⟨_, body⟩
    | under anchor body =>
      cases spelled
      exact ⟨_, _, _, anchor, ⟨_, body⟩, rfl⟩
    | underActive body =>
      cases spelled
      exact ⟨_, body⟩
    | run body =>
      obtain ⟨v, later, begins⟩ := sequence_begins body
      rw [← spelled] at begins body
      cases begins
      exact ⟨_, body⟩
  · intro derived
    cases k with
    | save =>
      obtain ⟨value, l, name, identifier, rfl⟩ := derived
      exact ⟨_, .save value identifier⟩
    | conditional =>
      obtain ⟨used, c, later, predicate, ⟨cs, body⟩, rfl⟩ := derived
      exact ⟨_, .conditional predicate body⟩
    | catchError =>
      obtain ⟨cs, body⟩ := derived
      exact ⟨_, .handler body⟩
    | under =>
      obtain ⟨l, p, later, anchor, ⟨cs, body⟩, rfl⟩ := derived
      exact ⟨_, .under anchor body⟩
    | underActiveElement =>
      obtain ⟨cs, body⟩ := derived
      exact ⟨_, .underActive body⟩
    | _ =>
      obtain ⟨cs, body⟩ := derived
      exact ⟨_, .run body⟩

theorem Refuses.headed {k : Keyword} {first : Token} {rest : List Token} (leading : first.lexeme = .keyword k)
    (refuses : Refuses (Behind k) line rest e) : Refuses Stated line (first :: rest) e := by
  rw [← stated_after] at refuses
  exact .cons leading refuses

theorem refuses_of_form {first : Token} {rest : List Token} (free : Free (first :: rest))
    (stopped : form line first rest = .error e) : Refuses Stated line (first :: rest) e := by
  have freeRest := (free_of_cons free).2
  unfold form at stopped
  split at stopped
  · cases stopped
  · next leading => exact .headed leading (refuses_of_saving freeRest stopped)
  · next leading => exact .headed leading (refuses_of_conditional freeRest stopped)
  · next leading => exact .headed leading (refuses_of_closing freeRest stopped)
  · next leading => exact .headed leading (refuses_of_anchored (fun p => .under (some p)) freeRest stopped)
  · next leading => exact .headed leading (refuses_of_closing freeRest stopped)
  · next comment save conditional catchError under underActiveElement =>
    -- Nothing else begins a statement but a verb, so the whole line is read as a sequence.
    have same (x : List Lexeme) : Sequence false (first.lexeme :: x) ↔ Stated (first.lexeme :: x) := by
      refine ⟨fun ⟨cs, body⟩ => ⟨_, .run body⟩, fun ⟨f, derivation⟩ => ?_⟩
      generalize spelled : first.lexeme :: x = spelling at derivation
      cases derivation with
      | comment text => exact absurd (List.cons.inj spelled).1 (comment text)
      | save value identifier => exact absurd (List.cons.inj spelled).1 save
      | conditional predicate body => exact absurd (List.cons.inj spelled).1 conditional
      | handler body => exact absurd (List.cons.inj spelled).1 catchError
      | under anchor body => exact absurd (List.cons.inj spelled).1 under
      | underActive body => exact absurd (List.cons.inj spelled).1 underActiveElement
      | run body => exact ⟨_, body⟩
    have possible : Viable Stated [] :=
      ⟨[.keyword (.verb .click)], written_keyword _, _, .run (sequence_click false).choose_spec⟩
    exact (refuses_of_closing free stopped).of_head same possible

/-! ### Scripts -/

theorem mapM_eq_error {α β : Type} {f : α → Read β} {list : List α} (stopped : list.mapM f = .error e) :
    ∃ before a after, list = before ++ a :: after ∧ (∀ b ∈ before, ∃ c, f b = .ok c) ∧ f a = .error e := by
  induction list with
  | nil => cases stopped
  | cons a later ih =>
    rw [List.mapM_cons] at stopped
    rcases Except.bind_eq_error.mp stopped with here | ⟨b, first, goesOn⟩
    · exact ⟨[], a, later, rfl, List.forall_mem_nil _, here⟩
    · rcases Except.bind_eq_error.mp goesOn with below | ⟨_, -, done⟩
      · obtain ⟨before, c, after, rfl, read, refused⟩ := ih below
        exact ⟨a :: before, c, after, rfl, List.forall_mem_cons.mpr ⟨⟨b, first⟩, read⟩, refused⟩
      · cases done

theorem refuses_of_statement {l : LogicalLine} (proper : l.Proper) (stopped : statement l = .error e) :
    ¬ Stated (lexemes l.tokens) ∧ Refuses Stated l.first.line l.tokens e := by
  rcases Except.bind_eq_error.mp stopped with stopped | ⟨f, -, done⟩
  · refine ⟨fun ⟨f, derivation⟩ => ?_, refuses_of_form proper.free stopped⟩
    rw [form_complete derivation] at stopped
    cases stopped
  · cases done

/-- A text that is not quoted has no blanks. -/
theorem text_ne_endOfLine {source : List Char} {spelling : List Lexeme} (read : Lexeme.ofLine source = .ok spelling) :
    ∀ l ∈ spelling, l.text ≠ "end of line" := by
  unfold Lexeme.ofLine at read
  split at read
  · next rest marked =>
    cases read
    refine List.forall_mem_singleton.mpr fun same => ?_
    have letters := congrArg String.toList same
    simp [Lexeme.text] at letters
  · have nothing : Lexeme.Pending.gap.Fits [] := fun c last => by cases last
    obtain ⟨segments, -, reads⟩ := Lexeme.follow_split Even.zero nothing read
    intro l listed same
    obtain ⟨s, readAs⟩ := Lexeme.Segment.exists_readAs reads l listed
    have letters : "end of line".toList = s.piece := same ▸ readAs.text_eq
    rcases readAs.isSegment with ⟨content, quoted⟩ | run
    · have opens := letters.trans quoted.piece
      simp at opens
    · have blank := (run.solid.chars ' ' (letters ▸ by decide)).1
      cases blank

/-- Where a line is refused, its end is told if and only if all of its tokens can be continued. -/
theorem Refuses.endOfLine_iff (refuses : Refuses language line tokens e) (written : ∀ l ∈ lexemes tokens, l.Written)
    (unlike : ∀ t ∈ tokens, t.text ≠ "end of line") :
    e.found.display = "end of line" ↔ Viable language (lexemes tokens) := by
  cases refuses with
  | token before t after split place found viable stuck =>
    subst split
    rw [found]
    refine iff_of_false (unlike t (by simp)) fun all => stuck ?_
    have whole : lexemes (before ++ t :: after) = lexemes (before ++ [t]) ++ lexemes after := by
      rw [← lexemes_append, List.append_assoc, List.singleton_append]
    rw [whole] at written all
    exact all.of_append (List.forall_mem_append.mp written).2
  | short place found viable =>
    rw [found]
    exact iff_of_true rfl viable

theorem refuses_of_parse {source : String} {lines : List LogicalLine} (scanned : LogicalLine.scan source = .ok lines)
    (stopped : Script.parse source = .error e) :
    ∃ before l after, lines = before ++ l :: after ∧ (∀ m ∈ before, Stated (lexemes m.tokens)) ∧
      ¬ Stated (lexemes l.tokens) ∧ Refuses Stated l.first.line l.tokens e := by
  have proper := LogicalLine.proper_scan scanned
  have refused : lines.mapM statement = .error e := by
    rcases Except.bind_eq_error.mp (Except.map_eq_error.mp stopped) with unscanned | ⟨lines', scanned', refused⟩
    · cases scanned.symm.trans unscanned
    · rwa [Except.ok.inj (scanned.symm.trans scanned')]
  obtain ⟨before, l, after, rfl, read, here⟩ := mapM_eq_error refused
  refine ⟨before, l, after, rfl, fun m earlier => ?_, refuses_of_statement (proper l (by simp)) here⟩
  obtain ⟨st, derives⟩ := read m earlier
  exact ⟨_, ((statement_eq_ok (proper m (List.mem_append_left _ earlier))).mp derives).form⟩

/-- Where a script is refused that can be split into logical lines, the lines before the one that is reported are
statements, and that line is none. The tokens before the one that is found can be continued to a statement, and together
with it they cannot. The end of the line is told if and only if the whole line can be continued to a statement. -/
theorem refused_at_first_mistake {source : String} {lines : List LogicalLine}
    (scanned : LogicalLine.scan source = .ok lines) (stopped : Script.parse source = .error e) :
    ∃ before l after, lines = before ++ l :: after ∧ (∀ m ∈ before, Stated (lexemes m.tokens)) ∧
      ¬ Stated (lexemes l.tokens) ∧ Refuses Stated l.first.line l.tokens e ∧
      (e.found.display = "end of line" ↔ Viable Stated (lexemes l.tokens)) := by
  obtain ⟨before, l, after, rfl, stated, underivable, refuses⟩ := refuses_of_parse scanned stopped
  have listed : l ∈ before ++ l :: after := by simp
  refine ⟨before, l, after, rfl, stated, underivable, refuses, refuses.endOfLine_iff ?_ fun t inside => ?_⟩
  · exact LogicalLine.written_scan scanned l listed
  · have origin : LogicalLine.From (Text.lines source.toList) l :=
      LogicalLine.from_ofLines (fun b same => by cases same) (List.Subset.refl _) scanned l listed
    obtain ⟨physical, -, spelling, read, among⟩ := origin t inside
    exact text_ne_endOfLine read _ among

/-- Running again is asked for in a condition that goes over three physical lines. -/
def misplaced : String := "click\nif locate \"x\" then\n\ntry-again"

theorem scan_misplaced : LogicalLine.scan misplaced = .ok [⟨⟨.keyword (.verb .click), 1⟩, []⟩,
    ⟨⟨.keyword .conditional, 2⟩, [⟨.keyword (.verb .locate), 2⟩, ⟨.quoted "x", 2⟩, ⟨.keyword .thereupon, 2⟩,
      ⟨.keyword (.verb .tryAgain), 4⟩]⟩] := by decide +kernel

theorem parse_misplaced : Script.parse misplaced = .error ⟨4, .handlerForTryAgain, .text "try-again"⟩ :=
  Except.map_eq_error.mpr (by decide +kernel)

theorem refused_at_first_mistake_misplaced : ∃ lines, LogicalLine.scan misplaced = .ok lines ∧
    Script.parse misplaced = .error ⟨4, .handlerForTryAgain, .text "try-again"⟩ ∧
    ∃ before l after, lines = before ++ l :: after ∧ (∀ m ∈ before, Stated (lexemes m.tokens)) ∧
      ¬ Stated (lexemes l.tokens) ∧
      Refuses Stated l.first.line l.tokens ⟨4, .handlerForTryAgain, .text "try-again"⟩ ∧
      ((Found.text "try-again").display = "end of line" ↔ Viable Stated (lexemes l.tokens)) :=
  ⟨_, scan_misplaced, parse_misplaced, refused_at_first_mistake scan_misplaced parse_misplaced⟩

end Walkthrough.Grammar
