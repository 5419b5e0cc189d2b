/-
# Cli.Split — a command line becomes words

`split` is a machine over the characters of a line.  It appends to the last word
it has, and asserts at each such place that there is one: `none` is a failed
assertion, and `splitInto_isSome` says that no line fails one.

`Written` says how words can be written on a line: bare, between quotes, and with
backslashes.  `split_of_written` is the round trip; empty words are dropped, and
that is the only loss.  In the other direction, `split_nonempty` and
`split_sublist` say of every line that its words are not empty, and that their
characters are characters of the line, in order.
-/
import Lynx.Cli.Text

namespace Lynx.Cli.Split

open scoped List

set_option autoImplicit false

/-- `Text::State`. -/
inductive State where
  | space
  | word
  | sentence
  | escape
  deriving DecidableEq, Repr

/-- `Text::SentenceType`. -/
inductive SentenceType where
  | quote
  | doubleQuote
  deriving DecidableEq, Repr

/-- The fields of `Text` that change. -/
structure TextState where
  state : State := .space
  prevState : State := .space
  sentenceType : SentenceType := .doubleQuote
  splitResult : List Text := []
  deriving DecidableEq, Repr

/-- `c == ' ' || c == '\t' || c == '\n'`. -/
def isBlank (c : Byte) : Bool := c == 32 || c == 9 || c == 10

/-- `c == '"' || c == '\''`. -/
def isQuote (c : Byte) : Bool := c == 34 || c == 39

/-- `c == '"' ? SentenceType::double_quote : SentenceType::quote`. -/
def sentenceTypeOf (c : Byte) : SentenceType := if c = 34 then .doubleQuote else .quote

/-- `splitResult.back() += suffix`, after the assertion that there is a last word. -/
def appendBack (words : List Text) (suffix : Text) : Option (List Text) :=
  match words.getLast? with
  | none => none
  | some last => some (words.dropLast ++ [last ++ suffix])

namespace TextState

/-- `splitResult.emplace_back(word)`. -/
def emplace (t : TextState) (word : Text) : TextState :=
  { t with splitResult := t.splitResult ++ [word] }

/-- `splitResult.back() += suffix`. -/
def append (t : TextState) (suffix : Text) : Option TextState :=
  (appendBack t.splitResult suffix).map fun words => { t with splitResult := words }

/-- `NewSentence`. -/
def newSentence (t : TextState) (c : Byte) : TextState :=
  { t with state := .sentence, sentenceType := sentenceTypeOf c }.emplace []

def evalSpace (t : TextState) (c : Byte) : TextState :=
  if isBlank c then t
  else if isQuote c then t.newSentence c
  else if c = 92 then { t with prevState := .word, state := .escape }.emplace []
  else if c = 33 then t.emplace [c]
  else { t with state := .word }.emplace [c]

def evalWord (t : TextState) (c : Byte) : Option TextState :=
  if isBlank c then some { t with state := .space }
  else if c = 33 then some { t.emplace [c] with state := .space }
  else if isQuote c then some (t.newSentence c)
  else if c = 92 then some { t with prevState := t.state, state := .escape }
  else t.append [c]

def evalSentence (t : TextState) (c : Byte) : Option TextState :=
  if isQuote c then
    if sentenceTypeOf c = t.sentenceType then some { t with state := .space } else t.append [c]
  else if c = 92 then some { t with prevState := t.state, state := .escape }
  else t.append [c]

def evalEscape (t : TextState) (c : Byte) : Option TextState :=
  if c ≠ 34 ∧ c ≠ 39 ∧ c ≠ 92 then
    ((t.append [92]).bind fun t => t.append [c]).map fun t => { t with state := t.prevState }
  else (t.append [c]).map fun t => { t with state := t.prevState }

/-- `Text::Eval`. -/
def eval (t : TextState) (c : Byte) : Option TextState :=
  match t.state with
  | .space => some (t.evalSpace c)
  | .word => t.evalWord c
  | .sentence => t.evalSentence c
  | .escape => t.evalEscape c

/-- The loop of `SplitInto`. -/
def evalAll (t : TextState) (input : Text) : Option TextState := input.foldlM eval t

end TextState

/-- `Text::SplitInto`: the loop, then `RemoveEmptyEntries`. -/
def splitInto (input : Text) : Option (List Text) :=
  (TextState.evalAll {} input).map fun t => t.splitResult.filter fun word => !word.isEmpty

/-- `split`. -/
def split (input : Text) : List Text := (splitInto input).getD []

/-! ## No assertion fails -/

/-- There is a word to append to, wherever the machine may append. -/
structure Good (t : TextState) : Prop where
  last : t.state ≠ .space → t.splitResult ≠ []
  prev : t.state = .escape → t.prevState = .word ∨ t.prevState = .sentence

theorem append_concat (t : TextState) (words : List Text) (word suffix : Text) :
    { t with splitResult := words ++ [word] }.append suffix =
      some { t with splitResult := words ++ [word ++ suffix] } := by
  simp [TextState.append, appendBack]

theorem append_eq {t : TextState} (last : t.splitResult ≠ []) (suffix : Text) :
    ∃ words, words ≠ [] ∧ t.append suffix = some { t with splitResult := words } := by
  obtain ⟨words, word, split⟩ := (List.eq_nil_or_concat' t.splitResult).resolve_left last
  refine ⟨words ++ [word ++ suffix], by simp, ?_⟩
  have same : t = { t with splitResult := words ++ [word] } := by rw [← split]
  rw [same, append_concat]

/-- **One character** finds the word it asks for. -/
theorem Good.eval {t : TextState} (good : Good t) (c : Byte) :
    ∃ after, t.eval c = some after ∧ Good after := by
  obtain ⟨state, prevState, sentenceType, words⟩ := t
  cases state with
  | space =>
      refine ⟨_, rfl, ?_⟩
      simp only [TextState.evalSpace]
      split_ifs
      · exact good
      · exact ⟨by simp [TextState.newSentence, TextState.emplace],
          by simp [TextState.newSentence, TextState.emplace]⟩
      · exact ⟨by simp [TextState.emplace], by simp [TextState.emplace]⟩
      · exact ⟨by simp [TextState.emplace], by simp [TextState.emplace]⟩
      · exact ⟨by simp [TextState.emplace], by simp [TextState.emplace]⟩
  | word =>
      have last : words ≠ [] := good.last (by simp)
      simp only [TextState.eval, TextState.evalWord]
      split_ifs
      · exact ⟨_, rfl, by simp, by simp⟩
      · exact ⟨_, rfl, by simp, by simp⟩
      · exact ⟨_, rfl, by simp [TextState.newSentence, TextState.emplace],
          by simp [TextState.newSentence, TextState.emplace]⟩
      · exact ⟨_, rfl, fun _ => last, by simp⟩
      · obtain ⟨more, some', appended⟩ := append_eq (t := ⟨.word, prevState, sentenceType, words⟩)
          last [c]
        exact ⟨_, appended, fun _ => some', by simp⟩
  | sentence =>
      have last : words ≠ [] := good.last (by simp)
      obtain ⟨more, some', appended⟩ := append_eq
        (t := ⟨.sentence, prevState, sentenceType, words⟩) last [c]
      simp only [TextState.eval, TextState.evalSentence]
      split_ifs
      · exact ⟨_, rfl, by simp, by simp⟩
      · exact ⟨_, appended, fun _ => some', by simp⟩
      · exact ⟨_, rfl, fun _ => last, by simp⟩
      · exact ⟨_, appended, fun _ => some', by simp⟩
  | escape =>
      have last : words ≠ [] := good.last (by simp)
      have noEscape : prevState ≠ .escape := by
        rcases good.prev rfl with h | h <;> simp_all
      simp only [TextState.eval, TextState.evalEscape]
      split_ifs
      · obtain ⟨one, some', first⟩ := append_eq
          (t := ⟨.escape, prevState, sentenceType, words⟩) last [92]
        obtain ⟨two, some'', second⟩ := append_eq
          (t := ⟨.escape, prevState, sentenceType, one⟩) some' [c]
        rw [first, Option.bind_some, second]
        exact ⟨_, rfl, fun _ => some'', fun h => absurd h noEscape⟩
      · obtain ⟨one, some', first⟩ := append_eq
          (t := ⟨.escape, prevState, sentenceType, words⟩) last [c]
        rw [first]
        exact ⟨_, rfl, fun _ => some', fun h => absurd h noEscape⟩

theorem Good.evalAll {t : TextState} (good : Good t) (input : Text) :
    ∃ after, t.evalAll input = some after ∧ Good after := by
  induction input generalizing t with
  | nil => exact ⟨t, rfl, good⟩
  | cons c rest ih =>
      obtain ⟨middle, stepped, goodMiddle⟩ := good.eval c
      obtain ⟨after, ran, goodAfter⟩ := ih goodMiddle
      refine ⟨after, ?_, goodAfter⟩
      simpa [TextState.evalAll, stepped] using ran

/-- **No line fails an assertion.** -/
theorem splitInto_isSome (input : Text) : (splitInto input).isSome = true := by
  have start : Good {} := ⟨by simp, by simp⟩
  obtain ⟨after, ran, -⟩ := start.evalAll input
  simp [splitInto, ran]

theorem splitInto_eq_some (input : Text) : splitInto input = some (split input) := by
  obtain ⟨words, found⟩ := Option.isSome_iff_exists.mp (splitInto_isSome input)
  simp [split, found]

/-! ## The words of any line -/

/-- The words hold characters of what was read, in order; a backslash that was read
last is not among them yet. -/
def Drawn (t : TextState) (read : Text) : Prop :=
  if t.state = .escape then ∃ before, read = before ++ [92] ∧ t.splitResult.flatten <+ before
  else t.splitResult.flatten <+ read

theorem append_eq_some {t after : TextState} {suffix : Text} (appended : t.append suffix = some after) :
    after.state = t.state ∧ after.prevState = t.prevState ∧
      after.splitResult.flatten = t.splitResult.flatten ++ suffix := by
  obtain ⟨words, found, rfl⟩ := Option.map_eq_some_iff.mp appended
  refine ⟨rfl, rfl, ?_⟩
  rcases List.eq_nil_or_concat' t.splitResult with none' | ⟨init, word, split⟩
  · simp [appendBack, none'] at found
  · simp only [appendBack, split, List.getLast?_concat, List.dropLast_concat,
      Option.some.injEq] at found
    simp [← found, split]

theorem Drawn.eval {t after : TextState} {read : Text} {c : Byte} (good : Good t)
    (drawn : Drawn t read) (stepped : t.eval c = some after) : Drawn after (read ++ [c]) := by
  obtain ⟨state, prevState, sentenceType, words⟩ := t
  have one (found : Text) (h : found <+ read) : found ++ [c] <+ read ++ [c] :=
    h.append (List.Sublist.refl _)
  have skip (found : Text) (h : found <+ read) : found <+ read ++ [c] :=
    h.trans (List.sublist_append_left _ _)
  cases state with
  | space =>
      obtain rfl := Option.some.inj stepped
      simp only [Drawn, reduceCtorEq, if_false] at drawn
      simp only [TextState.evalSpace]
      split_ifs with blank quote backslash bang
      · simpa [Drawn] using skip _ drawn
      · simpa [Drawn, TextState.newSentence, TextState.emplace] using skip _ drawn
      · subst backslash
        simpa [Drawn, TextState.emplace] using drawn
      · simpa [Drawn, TextState.emplace] using one _ drawn
      · simpa [Drawn, TextState.emplace] using one _ drawn
  | word =>
      simp only [Drawn, reduceCtorEq, if_false] at drawn
      simp only [TextState.eval, TextState.evalWord] at stepped
      split_ifs at stepped with blank bang quote backslash
      · obtain rfl := Option.some.inj stepped
        simpa [Drawn] using skip _ drawn
      · obtain rfl := Option.some.inj stepped
        simpa [Drawn, TextState.emplace] using one _ drawn
      · obtain rfl := Option.some.inj stepped
        simpa [Drawn, TextState.newSentence, TextState.emplace] using skip _ drawn
      · obtain rfl := Option.some.inj stepped
        subst backslash
        simpa [Drawn] using drawn
      · obtain ⟨state, -, words⟩ := append_eq_some stepped
        simpa [Drawn, state, words] using one _ drawn
  | sentence =>
      simp only [Drawn, reduceCtorEq, if_false] at drawn
      simp only [TextState.eval, TextState.evalSentence] at stepped
      split_ifs at stepped with quote same backslash
      · obtain rfl := Option.some.inj stepped
        simpa [Drawn] using skip _ drawn
      · obtain ⟨state, -, words⟩ := append_eq_some stepped
        simpa [Drawn, state, words] using one _ drawn
      · obtain rfl := Option.some.inj stepped
        subst backslash
        simpa [Drawn] using drawn
      · obtain ⟨state, -, words⟩ := append_eq_some stepped
        simpa [Drawn, state, words] using one _ drawn
  | escape =>
      obtain ⟨before, rfl, inBefore⟩ : ∃ before, read = before ++ [92] ∧ words.flatten <+ before := by
        simpa [Drawn] using drawn
      have noEscape : prevState ≠ .escape := by
        rcases good.prev rfl with h | h <;> simp_all
      simp only [TextState.eval, TextState.evalEscape] at stepped
      split_ifs at stepped
      · obtain ⟨two, appended, rfl⟩ := Option.map_eq_some_iff.mp stepped
        obtain ⟨one, first, second⟩ := Option.bind_eq_some_iff.mp appended
        obtain ⟨-, prevOne, wordsOne⟩ := append_eq_some first
        obtain ⟨-, prevTwo, wordsTwo⟩ := append_eq_some second
        simp only [Drawn, prevTwo, prevOne, noEscape, if_false, wordsTwo, wordsOne,
          List.append_assoc]
        exact inBefore.append (List.Sublist.refl _)
      · obtain ⟨one, first, rfl⟩ := Option.map_eq_some_iff.mp stepped
        obtain ⟨-, prevOne, wordsOne⟩ := append_eq_some first
        simp only [Drawn, prevOne, noEscape, if_false, wordsOne, List.append_assoc]
        exact inBefore.append (List.sublist_append_right _ _)

theorem Drawn.evalAll {t after : TextState} {read input : Text} (good : Good t)
    (drawn : Drawn t read) (ran : t.evalAll input = some after) : Drawn after (read ++ input) := by
  induction input generalizing t read with
  | nil =>
      obtain rfl := Option.some.inj ran
      simpa using drawn
  | cons c rest ih =>
      obtain ⟨middle, stepped, goodMiddle⟩ := good.eval c
      have ran' : middle.evalAll rest = some after := by
        simpa [TextState.evalAll, stepped] using ran
      simpa using ih goodMiddle (drawn.eval good stepped) ran'

theorem flatten_filter_isEmpty (words : List Text) :
    (words.filter fun word => !word.isEmpty).flatten = words.flatten := by
  induction words with
  | nil => rfl
  | cons word rest ih =>
      cases word with
      | nil => simpa using ih
      | cons c word => simpa using ih

/-- **The words of any line** are not empty, and hold characters of the line, in
order and each at most once. -/
theorem split_drawn (input : Text) :
    (∀ word ∈ split input, word ≠ []) ∧ (split input).flatten <+ input := by
  have start : Good {} := ⟨by simp, by simp⟩
  obtain ⟨after, ran, -⟩ := start.evalAll input
  have words : split input = after.splitResult.filter fun word => !word.isEmpty := by
    simp [split, splitInto, ran]
  have drawn : Drawn after ([] ++ input) := Drawn.evalAll start (by simp [Drawn]) ran
  rw [words, flatten_filter_isEmpty]
  refine ⟨fun word member => by simpa using (List.mem_filter.mp member).2, ?_⟩
  unfold Drawn at drawn
  split at drawn
  · obtain ⟨before, rfl, found⟩ := drawn
    exact found.trans (List.sublist_append_left _ _)
  · exact drawn

/-! ## Words written on a line -/

/-- A character of a word: the quotes and the backslash get a backslash. -/
def escaped (c : Byte) : Text := if c = 34 ∨ c = 39 ∨ c = 92 then [92, c] else [c]

/-- A word as it can stand on a line. -/
def spell (word : Text) : Text := word.flatMap escaped

/-- The words that a line spells. -/
inductive Written : List Text → Text → Prop where
  | nil : Written [] []
  | blank {words : List Text} {rest : Text} (c : Byte) (blank : isBlank c = true)
      (written : Written words rest) : Written words (c :: rest)
  | bang {words : List Text} {rest : Text} (written : Written words rest) :
      Written ([33] :: words) (33 :: rest)
  | quoted {words : List Text} {rest : Text} (q : Byte) (quote : isQuote q = true) (word : Text)
      (written : Written words rest) :
      Written (word :: words) (q :: (spell word ++ q :: rest))
  | bare {words : List Text} {rest : Text} (c : Byte) (word : Text)
      (plain : ∀ d ∈ c :: word, isBlank d = false ∧ d ≠ 33)
      (ends : ∀ d ∈ rest.head?, isBlank d = true ∨ isQuote d = true ∨ d = 33)
      (written : Written words rest) :
      Written ((c :: word) :: words) (spell (c :: word) ++ rest)

section Reading

theorem evalAll_append (t : TextState) (first second : Text) :
    t.evalAll (first ++ second) = (t.evalAll first).bind fun middle => middle.evalAll second := by
  simp [TextState.evalAll, List.foldlM_append]

theorem escaped_cases (c : Byte) :
    ((c = 34 ∨ c = 39 ∨ c = 92) ∧ escaped c = [92, c]) ∨
      (isQuote c = false ∧ c ≠ 92 ∧ escaped c = [c]) := by
  unfold escaped
  split
  · rename_i special
    exact .inl ⟨special, rfl⟩
  · rename_i plain
    simp only [not_or] at plain
    exact .inr ⟨by simp [isQuote, plain.1, plain.2.1], plain.2.2, rfl⟩

/-- A character of a word that has begun, bare or between quotes. -/
theorem evalAll_escaped (p : State) (q : SentenceType) (words : List Text) (word : Text)
    {state : State} (inside : state = .word ∨ state = .sentence) {c : Byte}
    (plain : state = .word → isBlank c = false ∧ c ≠ 33) :
    ∃ p', TextState.evalAll ⟨state, p, q, words ++ [word]⟩ (escaped c) =
      some ⟨state, p', q, words ++ [word ++ [c]]⟩ := by
  rcases escaped_cases c with ⟨special, written⟩ | ⟨noQuote, noBackslash, written⟩
  · refine ⟨state, ?_⟩
    have kept : ¬ (c ≠ 34 ∧ c ≠ 39 ∧ c ≠ 92) := by tauto
    have appended := append_concat ⟨.escape, state, q, words ++ [word]⟩ words word [c]
    rcases inside with rfl | rfl <;>
      simp [TextState.evalAll, written, TextState.eval, TextState.evalWord,
        TextState.evalSentence, isBlank, isQuote, TextState.evalEscape, kept, appended]
  · refine ⟨p, ?_⟩
    have appended := append_concat ⟨state, p, q, words ++ [word]⟩ words word [c]
    rcases inside with rfl | rfl
    · obtain ⟨noBlank, noBang⟩ := plain rfl
      simp [TextState.evalAll, written, TextState.eval, TextState.evalWord, noBlank, noBang,
        noQuote, noBackslash, appended]
    · simp [TextState.evalAll, written, TextState.eval, TextState.evalSentence, noQuote,
        noBackslash, appended]

theorem evalAll_spell (p : State) (q : SentenceType) (words : List Text) (word : Text)
    {state : State} (inside : state = .word ∨ state = .sentence) {more : Text}
    (plain : state = .word → ∀ c ∈ more, isBlank c = false ∧ c ≠ 33) :
    ∃ p', TextState.evalAll ⟨state, p, q, words ++ [word]⟩ (spell more) =
      some ⟨state, p', q, words ++ [word ++ more]⟩ := by
  induction more generalizing p word with
  | nil => exact ⟨p, by simp [spell, TextState.evalAll]⟩
  | cons c rest ih =>
      obtain ⟨p₁, first⟩ := evalAll_escaped p q words word inside fun bare =>
        plain bare c (by simp)
      obtain ⟨p₂, second⟩ := ih p₁ (word ++ [c]) fun bare d member =>
        plain bare d (by simp [member])
      refine ⟨p₂, ?_⟩
      have split : spell (c :: rest) = escaped c ++ spell rest := rfl
      rw [split, evalAll_append, first, Option.bind_some, second]
      simp

/-- A quoted word, from its first quote to its last. -/
theorem evalAll_quoted (p : State) (q : SentenceType) (words : List Text) (word : Text)
    {c : Byte} (quote : isQuote c = true) :
    ∃ p', TextState.evalAll ⟨.space, p, q, words⟩ (c :: (spell word ++ [c])) =
      some ⟨.space, p', sentenceTypeOf c, words ++ [word]⟩ := by
  have noBlank : isBlank c = false := by
    rcases Bool.or_eq_true_iff.mp quote with h | h <;> (rw [eq_of_beq h]; rfl)
  have sentence : State.sentence = .word ∨ State.sentence = .sentence := .inr rfl
  have noWord : State.sentence = .word → ∀ d ∈ word, isBlank d = false ∧ d ≠ 33 :=
    fun bare => by cases bare
  obtain ⟨p', inside⟩ := evalAll_spell p (sentenceTypeOf c) words [] sentence noWord
  refine ⟨p', ?_⟩
  have opened : TextState.evalAll ⟨.space, p, q, words⟩ [c] =
      some ⟨.sentence, p, sentenceTypeOf c, words ++ [[]]⟩ := by
    simp [TextState.evalAll, TextState.eval, TextState.evalSpace, noBlank, quote,
      TextState.newSentence, TextState.emplace]
  have closed : TextState.evalAll ⟨.sentence, p', sentenceTypeOf c, words ++ [word]⟩ [c] =
      some ⟨.space, p', sentenceTypeOf c, words ++ [word]⟩ := by
    simp [TextState.evalAll, TextState.eval, TextState.evalSentence, quote]
  have split : (c :: (spell word ++ [c]) : Text) = [c] ++ (spell word ++ [c]) := rfl
  rw [split, evalAll_append, opened, Option.bind_some, evalAll_append, inside, Option.bind_some]
  simpa using closed

/-- A bare word. -/
theorem evalAll_bare (p : State) (q : SentenceType) (words : List Text) {word : Text}
    {c : Byte} (plain : ∀ d ∈ c :: word, isBlank d = false ∧ d ≠ 33) :
    ∃ p', TextState.evalAll ⟨.space, p, q, words⟩ (spell (c :: word)) =
      some ⟨.word, p', q, words ++ [c :: word]⟩ := by
  obtain ⟨noBlank, noBang⟩ := plain c (by simp)
  have started : ∃ p', TextState.evalAll ⟨.space, p, q, words⟩ (escaped c) =
      some ⟨.word, p', q, words ++ [[c]]⟩ := by
    rcases escaped_cases c with ⟨special, written⟩ | ⟨noQuote, noBackslash, written⟩
    · have kept : ¬ (c ≠ 34 ∧ c ≠ 39 ∧ c ≠ 92) := by tauto
      have appended := append_concat ⟨.escape, .word, q, words ++ [[]]⟩ words [] [c]
      refine ⟨.word, ?_⟩
      rw [List.nil_append] at appended
      simp [TextState.evalAll, written, TextState.eval, TextState.evalSpace, isBlank,
        isQuote, TextState.emplace, TextState.evalEscape, kept, appended]
    · refine ⟨p, ?_⟩
      simp [TextState.evalAll, written, TextState.eval, TextState.evalSpace, noBlank, noQuote,
        noBackslash, noBang, TextState.emplace]
  obtain ⟨p₁, first⟩ := started
  have bare : State.word = .word ∨ State.word = .sentence := .inl rfl
  obtain ⟨p₂, second⟩ := evalAll_spell p₁ q words [c] bare fun _ d member =>
    plain d (List.mem_cons_of_mem c member)
  refine ⟨p₂, ?_⟩
  have split : spell (c :: word) = escaped c ++ spell word := rfl
  rw [split, evalAll_append, first, Option.bind_some, second]
  simp

/-- A character that ends a word is read as if no word had begun. -/
theorem evalAll_ends (p : State) (q : SentenceType) (words : List Text) {rest : Text}
    (ends : ∀ d ∈ rest.head?, isBlank d = true ∨ isQuote d = true ∨ d = 33) :
    ∃ state, (state = .space ∨ rest = []) ∧
      TextState.evalAll ⟨.word, p, q, words⟩ rest = TextState.evalAll ⟨state, p, q, words⟩ rest := by
  cases rest with
  | nil => exact ⟨.word, .inr rfl, rfl⟩
  | cons d rest =>
      refine ⟨.space, .inl rfl, ?_⟩
      have same : TextState.eval ⟨.word, p, q, words⟩ d = TextState.eval ⟨.space, p, q, words⟩ d := by
        simp only [TextState.eval, TextState.evalWord, TextState.evalSpace]
        by_cases blank : isBlank d = true
        · simp [blank]
        · by_cases bang : d = 33
          · subst bang
            simp [isBlank, isQuote, TextState.emplace]
          · have quote : isQuote d = true := by
              rcases ends d rfl with h | h | h
              · exact absurd h blank
              · exact h
              · exact absurd h bang
            simp [blank, bang, quote, TextState.newSentence]
      simp [TextState.evalAll, same]

/-- **The machine reads what is written**, wherever it stands between words. -/
theorem evalAll_written (p : State) (q : SentenceType) (words : List Text) {read : List Text}
    {input : Text} (written : Written read input) :
    ∃ after, TextState.evalAll ⟨.space, p, q, words⟩ input = some after ∧
      after.splitResult = words ++ read := by
  induction written generalizing p q words with
  | nil => exact ⟨_, rfl, by simp⟩
  | blank c blank _ ih =>
      obtain ⟨after, ran, result⟩ := ih p q words
      refine ⟨after, ?_, result⟩
      simpa [TextState.evalAll, TextState.eval, TextState.evalSpace, blank] using ran
  | bang _ ih =>
      obtain ⟨after, ran, result⟩ := ih p q (words ++ [[33]])
      refine ⟨after, ?_, by simp [result]⟩
      simpa [TextState.evalAll, TextState.eval, TextState.evalSpace, isBlank, isQuote,
        TextState.emplace] using ran
  | @quoted _ rest c quote word _ ih =>
      obtain ⟨p', first⟩ := evalAll_quoted p q words word quote
      obtain ⟨after, ran, result⟩ := ih p' (sentenceTypeOf c) (words ++ [word])
      refine ⟨after, ?_, by simp [result]⟩
      have split : (c :: (spell word ++ c :: rest) : Text) = c :: (spell word ++ [c]) ++ rest := by
        simp
      rw [split, evalAll_append, first, Option.bind_some, ran]
  | @bare _ rest c word plain ends _ ih =>
      obtain ⟨p', first⟩ := evalAll_bare p q words plain
      obtain ⟨state, state', same⟩ := evalAll_ends p' q (words ++ [c :: word]) ends
      obtain ⟨after, ran, result⟩ := ih p' q (words ++ [c :: word])
      rw [evalAll_append, first, Option.bind_some, same]
      rcases state' with rfl | rfl
      · exact ⟨after, ran, by simp [result]⟩
      · obtain rfl := Option.some.inj ran
        exact ⟨_, rfl, by simpa using result⟩

end Reading

/-- **The round trip.**  A line splits into the words that it spells, without the
empty ones. -/
theorem split_of_written {words : List Text} {input : Text} (written : Written words input) :
    split input = words.filter fun word => !word.isEmpty := by
  obtain ⟨after, ran, result⟩ := evalAll_written .space .doubleQuote [] written
  have same : TextState.evalAll {} input = some after := ran
  simp [split, splitInto, same, result]

/-- Words between quotes, with a space after each. -/
def quote (words : List Text) : Text :=
  words.flatMap fun word => 34 :: (spell word ++ [34, 32])

theorem written_quote (words : List Text) : Written words (quote words) := by
  induction words with
  | nil => exact .nil
  | cons word words ih =>
      have spaced : Written words (32 :: quote words) := .blank 32 rfl ih
      have quoted : Written (word :: words) (34 :: (spell word ++ 34 :: (32 :: quote words))) :=
        .quoted 34 rfl word spaced
      simpa [quote] using quoted

/-- **Any words can be put on a line**: between quotes, every list of words is read back,
without the empty ones. -/
theorem split_quote (words : List Text) :
    split (quote words) = words.filter fun word => !word.isEmpty :=
  split_of_written (written_quote words)

/-! ## Bare words -/

/-- A word that can stand on a line as it is. -/
def Bare (word : Text) : Prop :=
  word ≠ [] ∧ ∀ c ∈ word, isBlank c = false ∧ isQuote c = false ∧ c ≠ 33 ∧ c ≠ 92

instance (word : Text) : Decidable (Bare word) :=
  have : Decidable (∀ c ∈ word, isBlank c = false ∧ isQuote c = false ∧ c ≠ 33 ∧ c ≠ 92) :=
    List.decidableBAll _ word
  inferInstanceAs (Decidable (word ≠ [] ∧
    ∀ c ∈ word, isBlank c = false ∧ isQuote c = false ∧ c ≠ 33 ∧ c ≠ 92))

theorem spell_of_bare {word : Text} (all : ∀ c ∈ word, isQuote c = false ∧ c ≠ 92) :
    spell word = word := by
  induction word with
  | nil => rfl
  | cons c rest ih =>
      obtain ⟨noQuote, noBackslash⟩ := all c (by simp)
      have plain : escaped c = [c] := by
        rcases escaped_cases c with ⟨special, -⟩ | ⟨-, -, written⟩
        · rcases special with rfl | rfl | rfl
          · cases noQuote
          · cases noQuote
          · exact absurd rfl noBackslash
        · exact written
      have later : spell rest = rest := ih fun d member => all d (by simp [member])
      have both : spell (c :: rest) = escaped c ++ spell rest := rfl
      rw [both, plain, later, List.singleton_append]

/-- A bare word before a blank or the end of the line. -/
theorem Written.bare_cons {words : List Text} {word rest : Text} (bare : Bare word)
    (ends : ∀ d ∈ rest.head?, isBlank d = true) (written : Written words rest) :
    Written (word :: words) (word ++ rest) := by
  obtain ⟨some', all⟩ := bare
  have whole : spell word = word := spell_of_bare fun c member => ⟨(all c member).2.1, (all c member).2.2.2⟩
  cases word with
  | nil => exact absurd rfl some'
  | cons c word =>
      have plain : ∀ d ∈ c :: word, isBlank d = false ∧ d ≠ 33 := fun d member =>
        ⟨(all d member).1, (all d member).2.2.1⟩
      have both := Written.bare c word plain (fun d first => .inl (ends d first)) written
      rwa [whole] at both

end Lynx.Cli.Split
