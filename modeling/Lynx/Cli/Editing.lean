/-
# Cli.Editing — the screen shows the line that is edited

A session writes to one stream from many places: the editor, the prompt, the
handlers of the commands, the lists of completions, and other sessions, whose
broadcasts and log records come at any time.  `InStep` says that in spite of this the row
of the cursor reads: the prompt, the line, and the cursor at its place in the line.

What the library asks of an application for it is `Polite`: handlers write whole
lines without escape sequences, and names and prompts are made of cells.  Then
every key keeps the screen in step, `ret` and `clear` bring it back in step after
foreign output has come between, and `inStep_run` says so of every run of a session.
-/
import Lynx.Cli.Session
import Mathlib.Data.List.Dedup

namespace Lynx.Cli

open Lynx.Cli.Telnet (Key)
open Lynx.Cli.Split (split split_drawn)
open Lynx.Theory.Fallible
open Lynx.Theory.Run

set_option autoImplicit false

universe u v w x

/-! ## Texts of cells -/

theorem Printable.sublist {first second : Text} (printable : Printable second)
    (sub : List.Sublist first second) : Printable first :=
  fun c member => printable c (sub.subset member)

/-- The texts among the arguments are texts of cells. -/
def Args.Printable : Args → Prop
  | .values read => ∀ s, Value.string s ∈ read → Cli.Printable s
  | .words given => ∀ word ∈ given, Cli.Printable word

theorem parseParams_printable {params : List Param} {words : List Text} {values : List Value}
    (printable : ∀ word ∈ words, Printable word) (parsed : parseParams params words = some values) :
    (Args.values values).Printable := by
  induction params generalizing words values with
  | nil =>
      cases words with
      | nil =>
          cases parsed
          simp [Args.Printable]
      | cons word words => cases parsed
  | cons p params ih =>
      cases words with
      | nil => cases parsed
      | cons word words =>
          obtain ⟨value, read, parsed⟩ := Option.bind_eq_some_iff.mp parsed
          obtain ⟨rest, parsedRest, same⟩ := Option.bind_eq_some_iff.mp parsed
          cases same
          intro s member
          rcases List.mem_cons.mp member with rfl | later
          · have whole : s = word := by
              cases p with
              | string => simpa [fromString, eq_comm] using read
              | int => simp [fromString] at read
              | unsigned => simp [fromString] at read
              | bar => simp [fromString] at read
            rw [whole]
            exact printable word (by simp)
          · exact ih (fun word' inside => printable word' (by simp [inside])) parsedRest s later

theorem Signature.parse_printable {signature : Signature} {words : List Text} {args : Args}
    (printable : ∀ word ∈ words, Printable word) (parsed : signature.parse words = some args) :
    args.Printable := by
  cases signature with
  | variadic params =>
      obtain ⟨values, read, rfl⟩ := Option.map_eq_some_iff.mp parsed
      exact parseParams_printable printable read
  | freeform =>
      cases parsed
      exact printable

/-- **What a line of cells calls** is called with texts of cells. -/
theorem Menus.args_printable {ι : Type u} {H : Type v} {menus : Menus ι H} {m : ι}
    {words : List Text} {handler : H} {args : Args} (printable : ∀ word ∈ words, Printable word)
    (found : menus.scanCmds m words = some (.call handler args)) : args.Printable := by
  obtain ⟨k, f, rest, -, ends, taken⟩ := takes_of_call found
  cases rest with
  | nil => cases taken
  | cons word rest =>
      simp only [Function.exec] at taken
      split at taken
      · obtain ⟨parsed, read, same⟩ := Option.map_eq_some_iff.mp taken
        cases same
        exact Signature.parse_printable
          (fun word' inside => printable word' (ends.subset (by simp [inside]))) read
      · cases taken

theorem split_printable {line : Text} (printable : Printable line) :
    ∀ word ∈ split line, Printable word := by
  intro word member c inside
  have drawn := (split_drawn line).2
  exact printable c (drawn.subset (List.mem_flatten.mpr ⟨word, member, inside⟩))

/-! ## What is asked of an application -/

/-- Whole lines, and a message without escape sequences. -/
def Outcome.Polite {S : Type w} (done : Outcome S) : Prop :=
  Lines done.out ∧ ∀ what, done.what = some what → NoEscape what

/-- Handlers write whole lines; names and prompts are made of cells, and no handler
changes a prompt. -/
structure Program.Polite {ι : Type u} {H : Type v} {S : Type w} {O : Type x}
    (P : Program ι H S O) : Prop where
  names : ∀ shared, (P.menus shared).PrintableNames
  prompt : ∀ shared m, Printable (P.menus shared m).prompt
  steady : ∀ shared shared' m, (P.menus shared m).prompt = (P.menus shared' m).prompt
  help : ∀ shared m, Lines ((P.menus shared).mainHelp m)
  handler : ∀ self h args shared, args.Printable → (P.handler self h args shared).Polite
  sessionExit : ∀ self shared, (P.sessionExit self shared).Polite
  cliExit : Lines P.cliExit
  stdException : ∀ cmd what, Printable cmd → NoEscape what → Lines (P.stdException cmd what)

theorem printableNames_global : globalScopeMenu.PrintableNames where
  menu m := by
    cases m
    decide
  function m f inside := by
    simp only [globalScopeMenu, List.mem_cons, List.not_mem_nil, or_false,
      Command.function.injEq] at inside
    rcases inside with rfl | rfl | rfl | rfl <;> decide

theorem noEscape_flatMap {α : Type _} {items : List α} {f : α → Text}
    (each : ∀ a ∈ items, NoEscape (f a)) : NoEscape (items.flatMap f) := by
  intro c member
  obtain ⟨a, inside, wrote⟩ := List.mem_flatMap.mp member
  exact each a inside c wrote

theorem Function.lines_help {H : Type v} {f : Cli.Function H} (name : NoEscape f.name)
    (description : NoEscape f.description) (descs : ∀ desc ∈ f.parameterDesc, NoEscape desc) :
    Lines f.help := by
  have types : NoEscape f.signature.types := by
    cases f.signature with
    | variadic params =>
        refine noEscape_flatMap fun p _ => noEscape_append.mpr ⟨by decide, ?_⟩
        cases p <;> decide
    | freeform => exact (by decide : NoEscape (text " <list of strings>"))
  have parameters : NoEscape (f.parameterDesc.flatMap fun s => text " <" ++ s ++ text ">") :=
    noEscape_flatMap fun desc inside => noEscape_append.mpr
      ⟨noEscape_append.mpr ⟨by decide, descs desc inside⟩, by decide⟩
  unfold Function.help
  split
  · apply NoEscape.lines
    refine noEscape_append.mpr ⟨noEscape_append.mpr ⟨noEscape_append.mpr
      ⟨noEscape_append.mpr ⟨by decide, name⟩, ?_⟩, by decide⟩, description⟩
    split
    · exact types
    · exact parameters
  · exact .inl rfl

/-- The help of a menu is a text of whole lines when the help of its commands is. -/
theorem Menus.lines_mainHelp {ι : Type u} {H : Type v} {menus : Menus ι H} {m : ι}
    (functions : ∀ f, .function f ∈ (menus m).cmds → Lines f.help)
    (texts : ∀ n, NoEscape (menus n).name ∧ NoEscape (menus n).description) :
    Lines (menus.mainHelp m) := by
  have menu (n : ι) : Lines (menus.helpOf n) := by
    unfold helpOf
    split
    · exact (noEscape_append.mpr ⟨noEscape_append.mpr
        ⟨noEscape_append.mpr ⟨by decide, (texts n).1⟩, by decide⟩, (texts n).2⟩).lines
    · exact .inl rfl
  unfold mainHelp
  split
  · refine (lines_flatMap ?_).append ?_
    · intro cmd inside
      cases cmd with
      | function f => exact functions f inside
      | menu n => exact menu n
    · split
      · exact menu _
      · exact .inl rfl
  · exact .inl rfl

theorem lines_globalHelp : Lines (globalScopeMenu.mainHelp ()) := by decide +kernel

theorem lines_listing {history : History} (entries : history.Each Printable) :
    Lines (text "\n" ++ history.listing.flatMap History.listingLine ++ text "\n") := by
  have each : ∀ numbered ∈ history.listing, Lines (History.listingLine numbered) := by
    rintro ⟨cmd, id⟩ member
    have inside : cmd ∈ history.buffer := by
      have found := List.mem_of_getElem? (List.mem_zipIdx_iff_le_and_getElem?_sub.mp member).2
      simpa using found
    have number : NoEscape (FromString.printNat id) := by
      rintro c digit rfl
      exact absurd ((FromString.isDigits_printNat id).2 27 digit) (by decide)
    have noEscape : NoEscape (FromString.printNat id ++ text "\t" ++ cmd) :=
      noEscape_append.mpr
        ⟨noEscape_append.mpr ⟨number, by decide⟩, (entries cmd inside).noEscape⟩
    exact noEscape.lines
  have blank : Lines (text "\n") := .inr ⟨[], by decide, rfl⟩
  exact (blank.append (lines_flatMap each)).append blank

namespace World

variable {ι : Type u} {S : Type w}

/-- What holds of a session between two keys, whatever its screen shows. -/
structure Sound (w : World ι S) : Prop where
  calm : Calm w.session.out.screen
  good : w.session.history.Good
  entries : w.session.history.Each Printable

/-- The screen is at the start of a row. -/
structure Fresh (w : World ι S) : Prop extends Sound w where
  atStart : AtStart w.session.out.screen

variable {w : World ι S} {t : Text}

theorem Fresh.write (fresh : Fresh w) (lines : Lines t) : Fresh (w.write t) :=
  have atStart := OStream.atStart_put fresh.atStart lines
  ⟨⟨atStart.toCalm, fresh.good, fresh.entries⟩, atStart⟩

theorem Fresh.withHistory (fresh : Fresh w) {history : History} (good : history.Good)
    (entries : history.Each Printable) : Fresh (w.withHistory history) :=
  ⟨⟨fresh.calm, good, entries⟩, fresh.atStart⟩

/-- The menus, the shared state and the flag play no part. -/
theorem Fresh.of_eq (fresh : Fresh w) (w' : World ι S) (out : w'.session.out = w.session.out)
    (history : w'.session.history = w.session.history) : Fresh w' :=
  ⟨⟨out ▸ fresh.calm, history ▸ fresh.good, history ▸ fresh.entries⟩, out ▸ fresh.atStart⟩

end World

namespace Program

variable {ι : Type u} {H : Type v} {S : Type w} {O : Type x} {P : Program ι H S O} {self : O}

/-! ## A line is obeyed -/

section Feed

variable (polite : P.Polite) {w : World ι S} {cmd : Text}
include polite

/-- The screen after an action, and what it throws. -/
def Reported (done : World ι S × Option Text) : Prop :=
  done.1.Fresh ∧ ∀ what, done.2 = some what → NoEscape what

theorem fresh_report (printable : Printable cmd) {done : World ι S × Option Text}
    (reported : Reported done) : (P.report cmd done).Fresh := by
  obtain ⟨after, what⟩ := done
  obtain ⟨fresh, noEscape⟩ := reported
  cases what with
  | none => exact fresh
  | some what => exact fresh.write (polite.stdException cmd what printable (noEscape what rfl))

theorem reported_exit (fresh : w.Fresh) : Reported (P.exit self w) := by
  obtain ⟨lines, noEscape⟩ := polite.sessionExit self w.shared
  have done : World.Fresh ({ w with shared := (P.sessionExit self w.shared).shared }.write
      (P.sessionExit self w.shared).out) :=
    (fresh.of_eq { w with shared := (P.sessionExit self w.shared).shared } rfl rfl).write
      lines
  simp only [Program.exit]
  split
  · rename_i what thrown
    exact ⟨done, fun other same => by cases same; exact noEscape what thrown⟩
  · exact ⟨(done.write polite.cliExit).of_eq _ rfl rfl, fun what absurd' => by cases absurd'⟩

theorem fresh_help (fresh : w.Fresh) : (P.help w).Fresh := by
  have title : Lines (text "Commands available:\n") := .inr ⟨text "Commands available:", by decide, rfl⟩
  exact fresh.write ((title.append lines_globalHelp).append (polite.help _ _))

theorem fresh_execute (fresh : w.Fresh) (printable : Printable cmd) :
    (P.execute self cmd (split cmd) w).Fresh := by
  simp only [execute]
  split
  · exact fresh.of_eq _ rfl rfl
  · rename_i h args found
    have given := Menus.args_printable (split_printable printable) found
    obtain ⟨lines, noEscape⟩ := polite.handler self h args w.shared given
    refine fresh_report polite printable ⟨?_, noEscape⟩
    exact (fresh.of_eq
      { w with shared := (P.handler self h args w.shared).shared } rfl rfl).write lines
  · have noEscape : NoEscape (text "wrong command: " ++ cmd) :=
      noEscape_append.mpr ⟨by decide, printable.noEscape⟩
    exact fresh.write noEscape.lines

theorem fresh_obey (fresh : w.Fresh) (printable : Printable cmd) :
    (P.obey self cmd w).Fresh := by
  simp only [obey]
  split
  · exact fresh_help polite fresh
  · exact fresh_report polite printable (reported_exit polite fresh)
  · exact fresh.write (lines_listing fresh.entries)
  · exact fresh_execute polite fresh printable

/-- **A line that is fed** ends at the start of a row, however deep it is nested. -/
theorem fresh_feed {fuel : Nat} {after : World ι S} (fresh : w.Fresh) (printable : Printable cmd)
    (fed : P.feed self fuel w cmd = some (.ok after)) : after.Fresh := by
  induction fuel generalizing w cmd with
  | zero => cases fed
  | succ fuel ih =>
      by_cases blank : split cmd = []
      · rw [feed_blank blank] at fed
        cases fed
        exact fresh
      · cases named : recalls cmd with
        | none =>
            obtain ⟨history, taken, obeyed⟩ := feed_obey P self fuel fresh.good blank named
            obtain ⟨history', taken', good, -, -⟩ := fresh.good.newCommand cmd
            obtain rfl := ok_unique taken taken'
            rw [obeyed] at fed
            cases fed
            exact fresh_obey polite
              (fresh.withHistory good (fresh.entries.newCommand printable taken)) printable
        | some index =>
            rw [feed_recalls fresh.good named] at fed
            have entries := fresh.entries.afterRecall cmd
            have start := fresh.withHistory (fresh.good.afterRecall cmd).1 entries
            simp only at fed
            split at fed
            · rename_i recalled found
              exact ih start (entries.at' found) fed
            · cases fed
              exact start.write (polite.stdException _ _ printable (by decide))
            · cases fed

end Feed

/-! ## The prompt and the line -/

/-- What stands before the line. -/
def base (P : Program ι H S O) (w : World ι S) : Text :=
  if w.session.exit then [] else (P.menus w.shared w.session.current).prompt ++ text "> "

/-- What holds between two keys. -/
structure Steady (t : Terminal) (w : World ι S) : Prop extends w.Sound where
  line : Printable t.currentLine

/-- The row of the cursor reads: the prompt, the line. -/
structure InStep (P : Program ι H S O) (t : Terminal) (w : World ι S) : Prop
    extends Steady t w where
  shown : Shown w.session.out (P.base w) t.currentLine t.position

section Redraw

variable (polite : P.Polite) {t : Terminal} {w : World ι S} {newLine : Text}

include polite in
theorem shown_prompt (fresh : w.Fresh) : Shown (P.prompt w).session.out (P.base w) [] 0 := by
  have start : Shown w.session.out [] [] 0 := fresh.atStart.shows
  by_cases exit : w.session.exit
  · simp only [prompt, base, exit, if_true]
    exact start
  · have named := polite.prompt w.shared w.session.current
    have first := ((start.beforePrompt (P.color w.shared)).first named).reset
    have second := first.settle.first (by decide : Printable (text "> "))
    simp only [prompt, base, exit]
    exact second.settle

theorem steady_setLine (steady : Steady t w) (printable : Printable newLine) :
    Steady (P.setLine t w newLine).1 (P.setLine t w newLine).2 :=
  ⟨⟨Terminal.calm_setLine steady.calm printable _, steady.good, steady.entries⟩, printable⟩

theorem inStep_setLine (inStep : InStep P t w) (printable : Printable newLine) :
    InStep P (P.setLine t w newLine).1 (P.setLine t w newLine).2 :=
  ⟨steady_setLine inStep.toSteady printable, inStep.shown.setLine printable⟩

theorem prompt_eq_withOut (w : World ι S) : ∃ out, P.prompt w = w.withOut out := by
  unfold prompt
  split
  · exact ⟨w.session.out, rfl⟩
  · exact ⟨_, rfl⟩

include polite in
/-- **A prompt** is in step with a line that is empty. -/
theorem inStep_prompt (fresh : w.Fresh) : InStep P {} (P.prompt w) := by
  have shown := shown_prompt polite fresh
  obtain ⟨out, same⟩ := prompt_eq_withOut (P := P) w
  rw [same] at shown ⊢
  exact ⟨⟨⟨shown.toCalm, fresh.good, fresh.entries⟩, by simp [Printable]⟩, shown⟩

include polite in
/-- **A prompt and the line again.** -/
theorem inStep_redraw (fresh : w.Fresh) (printable : Printable t.currentLine) :
    InStep P (P.redraw t w t.currentLine).1 (P.redraw t w t.currentLine).2 := by
  have shown := shown_prompt polite fresh
  obtain ⟨out, same⟩ := prompt_eq_withOut (P := P) w
  have steady : Steady t.resetCursor (w.withOut out) := by
    rw [same] at shown
    exact ⟨⟨shown.toCalm, fresh.good, fresh.entries⟩, printable⟩
  rw [redraw, same]
  rw [same] at shown
  refine ⟨steady_setLine steady printable, ?_⟩
  have printed := (((shown.beforeInput (P.color w.shared)).back (Nat.le_refl 0)).first
    printable).reset
  have same' : ¬ t.currentLine.length < t.currentLine.length := Nat.lt_irrefl _
  simp only [setLine, Terminal.setLine, Terminal.resetCursor, same', if_false]
  exact printed

end Redraw

/-! ## The keys -/

section Keys

variable (polite : P.Polite) {t t' : Terminal} {w w' : World ι S} {line : Text} {fuel : Nat} {k : Key}

theorem Steady.write (steady : Steady t w) {u : Text} (noEscape : NoEscape u) :
    Steady t (w.write u) :=
  ⟨⟨OStream.calm_put steady.calm noEscape, steady.good, steady.entries⟩, steady.line⟩

theorem Steady.newline (steady : Steady t w) {u : Text} (noEscape : NoEscape u) :
    (w.write (u ++ [10])).Fresh :=
  have atStart := OStream.atStart_newline steady.calm noEscape
  ⟨⟨atStart.toCalm, steady.good, steady.entries⟩, atStart⟩

include polite in
theorem printable_getCompletions {c : Text} (member : c ∈ P.getCompletions w line) :
    Printable c := by
  simp only [getCompletions, List.mem_dedup, List.mem_mergeSort, List.mem_append] at member
  rcases member with own | menu
  · exact Menus.printable_of_mem printableNames_global own
  · exact Menus.printable_of_mem (polite.names _) menu

theorem printable_commonPrefix {v : List Text} (some' : v ≠ []) (all : ∀ c ∈ v, Printable c) :
    Printable (commonPrefix v) := by
  obtain ⟨c, member⟩ := List.exists_mem_of_ne_nil v some'
  have begins := (commonPrefix_iff some' (commonPrefix v)).mp List.prefix_rfl c member
  exact (all c member).sublist begins.sublist

include polite in
/-- The list of the completions stands on rows of its own. -/
theorem fresh_list (steady : Steady t w) :
    ((w.write (text "\n")).write
      ((P.getCompletions w t.currentLine).flatMap (fun cmd => text "\t" ++ cmd) ++
        text "\n")).Fresh := by
  have first : (w.write (text "\n")).Fresh := steady.newline (u := []) (by decide)
  have items : NoEscape
      ((P.getCompletions w t.currentLine).flatMap fun cmd => text "\t" ++ cmd) := by
    intro c member
    obtain ⟨cmd, inside, wrote⟩ := List.mem_flatMap.mp member
    have printable := printable_getCompletions polite inside
    exact noEscape_append.mpr ⟨by decide, printable.noEscape⟩ c wrote
  exact first.write items.lines

/-- What the editor keeps of a predicate of the terminal and the session. -/
structure Kept (P : Program ι H S O) (Q : Terminal → World ι S → Prop) : Prop where
  steady : ∀ {t w}, Q t w → Steady t w
  redrawn : ∀ {t w}, InStep P t w → Q t w
  edited : ∀ {t w k}, Q t w → Typable k → k ≠ .ret →
    Q (t.keypressed (P.color w.shared) k w.session.out).2.1
      (w.withOut (t.keypressed (P.color w.shared) k w.session.out).2.2)
  setLine : ∀ {t w line}, Q t w → Printable line → Q (P.setLine t w line).1 (P.setLine t w line).2
  recalled : ∀ {t w history}, Q t w → History.Good history → history.Each Printable →
    Q t (w.withHistory history)

theorem steady_edited (steady : Steady t w) (typed : Typable k) :
    Steady (t.keypressed (P.color w.shared) k w.session.out).2.1
      (w.withOut (t.keypressed (P.color w.shared) k w.session.out).2.2) :=
  ⟨⟨Terminal.calm_keypressed steady.calm steady.line typed _, steady.good, steady.entries⟩,
    Terminal.printable_keypressed steady.line typed _ _⟩

theorem kept_steady (P : Program ι H S O) : Kept P Steady where
  steady h := h
  redrawn h := h.toSteady
  edited h typed _ := steady_edited h typed
  setLine h printable := steady_setLine h printable
  recalled h good entries := ⟨⟨h.calm, good, entries⟩, h.line⟩

theorem kept_inStep (P : Program ι H S O) : Kept P (InStep P) where
  steady h := h.toSteady
  redrawn h := h
  edited h typed other :=
    ⟨steady_edited h.toSteady typed, h.shown.keypressed h.line typed other⟩
  setLine h printable := inStep_setLine h printable
  recalled h good entries := ⟨⟨⟨h.calm, good, entries⟩, h.line⟩, h.shown⟩

variable {Q : Terminal → World ι S → Prop} (kept : Kept P Q)

include polite kept in
theorem Kept.tab (holds : Q t w) : Q (P.tab t w).1 (P.tab t w).2 := by
  have all (c : Text) (member : c ∈ P.getCompletions w t.currentLine) : Printable c :=
    printable_getCompletions polite member
  rcases tab_cases P t w with same | ⟨c, member, same⟩ | ⟨some', same⟩ | same
  · rw [same]
    exact holds
  · rw [same]
    exact kept.setLine holds (printable_append.mpr ⟨all c member, by decide⟩)
  · rw [same]
    exact kept.setLine holds (printable_commonPrefix some' all)
  · rw [same]
    have steady := kept.steady holds
    exact kept.redrawn (inStep_redraw polite (fresh_list polite steady) steady.line)

include polite in
/-- **`ret`** brings the screen in step. -/
theorem inStep_ret (steady : Steady t w)
    (ran : P.keypressed self fuel t w .ret = some (.ok (t', w'))) : InStep P t' w' := by
  have start : (w.withOut (w.session.out.put [13, 10])).Fresh :=
    have atStart := OStream.atStart_ret steady.calm
    ⟨⟨atStart.toCalm, steady.good, steady.entries⟩, atStart⟩
  rw [keypressed_eq] at ran
  obtain ⟨result, fed, same⟩ := Option.map_eq_some_iff.mp ran
  cases result with
  | error ending => cases same
  | ok after =>
      cases same
      exact inStep_prompt polite (fresh_feed polite start steady.line fed)

include polite in
/-- **`clear`** brings the screen in step. -/
theorem inStep_clear (steady : Steady t w)
    (ran : P.keypressed self fuel t w .clear = some (.ok (t', w'))) : InStep P t' w' := by
  have start : (w.write (text "\x1b[H\x1b[J")).Fresh := by
    have atStart : AtStart (w.session.out.put (text "\x1b[H\x1b[J")).screen := by
      rw [OStream.screen_put]
      exact steady.calm.clear
    exact ⟨⟨atStart.toCalm, steady.good, steady.entries⟩, atStart⟩
  rw [keypressed_eq] at ran
  cases ran
  exact inStep_redraw polite start steady.line

include kept in
/-- An arrow has found a line in the history. -/
theorem Kept.arrow (holds : Q t w) {found : Except Failure (Text × History)}
    (each : ∀ shown history, found = .ok (shown, history) →
      Printable shown ∧ history.Good ∧ history.Each Printable)
    (ran : some ((orAssertion found).map fun (line, history) =>
      P.setLine t (w.withHistory history) line) = some (.ok (t', w'))) : Q t' w' := by
  cases found with
  | error failure => cases ran
  | ok pair =>
      obtain ⟨shown, history⟩ := pair
      obtain ⟨printable, good, entries⟩ := each shown history rfl
      cases ran
      exact kept.setLine (kept.recalled holds good entries) printable

include polite kept in
/-- **A key**, but for the end of the file. -/
theorem Kept.keypressed (holds : Q t w) (typed : Typable k) (other : k ≠ .eof)
    (ran : P.keypressed self fuel t w k = some (.ok (t', w'))) : Q t' w' := by
  have steady := kept.steady holds
  cases k with
  | ret => exact kept.redrawn (inStep_ret polite steady ran)
  | clear => exact kept.redrawn (inStep_clear polite steady ran)
  | eof => exact absurd rfl other
  | ascii c =>
      have edited := kept.edited holds typed (by simp)
      rw [keypressed_eq] at ran
      by_cases tab : c = 9
      · simp only [Terminal.symbol, tab, if_true] at ran edited
        have tabbed := kept.tab polite edited
        have same : P.tab _ _ = (t', w') := Except.ok.inj (Option.some.inj ran)
        rw [same] at tabbed
        exact tabbed
      · simp only [Terminal.symbol, tab, if_false] at ran
        cases ran
        exact edited
  | up =>
      rw [keypressed_eq] at ran
      refine kept.arrow (kept.edited holds typed (by simp)) ?_ ran
      intro shown history found
      obtain ⟨shown', history', found', good⟩ := steady.good.previous t.currentLine
      cases ok_unique found found'
      obtain ⟨printable, entries⟩ := steady.entries.previous steady.line found
      exact ⟨printable, good, entries⟩
  | down =>
      rw [keypressed_eq] at ran
      refine kept.arrow (kept.edited holds typed (by simp)) ?_ ran
      intro shown history found
      obtain ⟨shown', history', found', good⟩ := steady.good.next
      cases ok_unique found found'
      obtain ⟨printable, entries⟩ := steady.entries.next found
      refine ⟨?_, good, entries⟩
      rcases printable with rfl | printable
      · simp [Printable]
      · exact printable
  | backspace | canc | left | right | home | end' | ignored =>
      have edited := kept.edited holds typed (by simp)
      rw [keypressed_eq] at ran
      cases ran
      exact edited

include polite in
theorem steady_exit (self : O) (steady : Steady t w) : Steady t (P.exit self w).1 := by
  have done : Steady t ({ w with shared := (P.sessionExit self w.shared).shared }.write
      (P.sessionExit self w.shared).out) :=
    Steady.write (w := { w with shared := (P.sessionExit self w.shared).shared })
      ⟨⟨steady.calm, steady.good, steady.entries⟩, steady.line⟩
      (polite.sessionExit self w.shared).1.noEscape
  simp only [Program.exit]
  split
  · exact done
  · have ended := done.write polite.cliExit.noEscape
    exact ⟨⟨ended.calm, ended.good, ended.entries⟩, ended.line⟩

include polite in
/-- **The end of the file** ends the session in the middle of the line. -/
theorem steady_eof (steady : Steady t w)
    (ran : P.keypressed self fuel t w .eof = some (.ok (t', w'))) : Steady t' w' := by
  have ended := steady_exit polite self steady
  rw [keypressed_eq] at ran
  have same : P.newCommand self fuel t w .eof = some (.ok (t', w')) := ran
  simp only [newCommand] at same
  split at same
  · cases same
  · rename_i after exited
    cases same
    rw [exited] at ended
    exact ended

end Keys

/-! ## Runs -/

/-- Cells, tabs, and no escape sequences of others. -/
def Input.Proper : Input S → Prop
  | .key k => Typable k
  | .foreign t _ => NoEscape t

/-- Is the screen in step after one more input? -/
def syncedAfter (before : Bool) : Input S → Bool
  | .key .ret => true
  | .key .clear => true
  | .key .eof => false
  | .key _ => before
  | .foreign t _ => before && t.isEmpty

/-- Nothing foreign has come since the last `ret` or `clear`. -/
def synced (events : List (Input S)) : Bool := events.foldl syncedAfter true

section Runs

variable (polite : P.Polite) {fuel : Nat} {s s' : Terminal × World ι S} {e : Input S}

include polite in
theorem inStep_opened {historySize : Nat} (capacity : 0 < historySize) {stored : List Text}
    (printable : ∀ cmd ∈ stored, Printable cmd) (shared : S) :
    InStep P (P.opened historySize stored shared).1 (P.opened historySize stored shared).2 := by
  have start : AtStart ({} : OStream).screen := ⟨⟨rfl, rfl⟩, rfl, rfl⟩
  have good := (History.good_start capacity).loadCommands rfl stored
  have entries : History.Each Printable
      (History.loadCommands { maxSize := historySize } stored) :=
    History.Each.loadCommands (by simp [History.Each]) printable
  let world : World ι S :=
    { session := {
        current := P.rootMenu
        history := History.loadCommands { maxSize := historySize } stored }
      shared := shared }
  have fresh : world.Fresh := ⟨⟨start.toCalm, good.1, entries⟩, start⟩
  exact inStep_prompt polite fresh

include polite in
theorem steady_step (steady : Steady s.1 s.2) (proper : e.Proper)
    (stepped : step P self fuel s e = some s') : Steady s'.1 s'.2 := by
  cases e with
  | foreign t shared =>
      cases stepped
      exact Steady.write (w := { s.2 with shared := shared })
        ⟨⟨steady.calm, steady.good, steady.entries⟩, steady.line⟩ proper
  | key k =>
      by_cases eof : k = .eof
      · subst eof
        exact steady_eof polite steady (step_key stepped)
      · exact (kept_steady P).keypressed polite steady proper eof (step_key stepped)

include polite in
/-- **One input**, in the order of `syncedAfter`. -/
theorem inStep_step {before : Bool} (steady : Steady s.1 s.2)
    (inStep : before = true → InStep P s.1 s.2) (proper : e.Proper)
    (stepped : step P self fuel s e = some s') (after : syncedAfter before e = true) :
    InStep P s'.1 s'.2 := by
  cases e with
  | foreign t shared =>
      obtain ⟨synced, empty⟩ := Bool.and_eq_true_iff.mp after
      cases stepped
      have shown := (inStep synced).shown
      rw [List.isEmpty_iff.mp empty] at proper ⊢
      have same : P.base (({ s.2 with shared := shared } : World ι S).write []) = P.base s.2 := by
        simp only [base, World.write, World.withOut, polite.steady shared s.2.shared]
      have plain : Shown (s.2.session.out.put []) (P.base s.2) s.1.currentLine s.1.position := by
        rw [Shown, OStream.screen_put]
        exact shown
      refine ⟨⟨⟨plain.toCalm, steady.good, steady.entries⟩, steady.line⟩, ?_⟩
      rw [same]
      exact plain
  | key k =>
      have ran := step_key stepped
      have steps (other : k ≠ .eof) (held : before = true) : InStep P s'.1 s'.2 :=
        (kept_inStep P).keypressed polite (inStep held) proper other ran
      cases k with
      | ret => exact inStep_ret polite steady ran
      | clear => exact inStep_clear polite steady ran
      | eof => cases after
      | ascii | backspace | canc | left | right | home | end' | up | down | ignored =>
          exact steps (by simp) after

include polite in
/-- **A whole run.**  The screen shows the prompt and the line after every input that
`synced` counts in, whatever others have written before. -/
theorem inStep_run {events : List (Input S)} (first : InStep P s.1 s.2)
    (proper : ∀ e ∈ events, e.Proper) (ran : run (step P self fuel) s events = some s') :
    Steady s'.1 s'.2 ∧ (synced events = true → InStep P s'.1 s'.2) := by
  revert proper
  refine run_induction (P := fun history state => (∀ e ∈ history, e.Proper) →
    Steady state.1 state.2 ∧ (synced history = true → InStep P state.1 state.2)) ?_ ?_ ran
  · exact fun _ => ⟨first.toSteady, fun _ => first⟩
  · intro history middle e after _ ih stepped proper
    obtain ⟨steady, inStep⟩ := ih fun e' member => proper e' (by simp [member])
    have here := proper e (by simp)
    refine ⟨steady_step polite steady here stepped, fun held => ?_⟩
    have counted : syncedAfter (synced history) e = true := by
      simpa [synced, List.foldl_append] using held
    exact inStep_step polite steady inStep here stepped counted

end Runs

end Program

end Lynx.Cli
