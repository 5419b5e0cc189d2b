/-
# Cli.Menu — the tree of menus, and which command a line calls

A menu holds commands and other menus and knows its parent; a session is in one of
them.  Menus refer to each other, so they are a table (`Menus`), and a menu is the
name of one of its rows.  A line calls the first command that accepts it
(`Menus.scanCmds`): a function when the first word is its name and the others are
its arguments, a menu when the first word is its name, for a line of its own in
that menu.

`scanCmds_path` is the rule for such lines: where no other command answers to the
words of a path, a line that begins with the path does what the rest of the line
does in the menu the path leads to.
-/
import Lynx.Cli.FromString
import Mathlib.Data.List.Induction

namespace Lynx.Cli

open Lynx.Cli.FromString

set_option autoImplicit false

universe u v

/-! ## Function commands -/

/-- The types of the parameters of the handlers. -/
inductive Param where
  | int
  | unsigned
  | string
  /-- `lynx::Bar`, read by its `operator>>`. -/
  | bar
  deriving DecidableEq, Repr

inductive Value where
  | int (n : Int32)
  | unsigned (n : UInt32)
  | string (s : Text)
  | bar (n : Int32)
  deriving DecidableEq

/-- A text without the spaces around it. -/
def trim (s : Text) : Text := (trimLeft (trimLeft s).reverse).reverse

/-- `from_string`.  The last one is `operator>>` of an `int` from a `stringstream`,
then `ws` to the end. -/
def fromString : Param → Text → Option Value
  | .int, s => (signedFromString s).map .int
  | .unsigned, s => (unsignedFromString s).map .unsigned
  | .string, s => some (.string s)
  | .bar, s => (signedFromString (trim s)).map .bar

/-- `TypeDesc<T>::Name()`. -/
def typeDesc : Param → Text
  | .int => text "<int>"
  | .unsigned => text "<unsigned int>"
  | .string => text "<string>"
  | .bar => []

/-- `VariadicFunctionCommand` or `FreeformCommand`. -/
inductive Signature where
  | variadic (params : List Param)
  | freeform
  deriving DecidableEq, Repr

/-- The arguments a handler is called with. -/
inductive Args where
  | values (values : List Value)
  | words (words : List Text)
  deriving DecidableEq

/-- The number of the words, and `Select<Args...>::Exec`. -/
def parseParams : List Param → List Text → Option (List Value)
  | [], [] => some []
  | p :: params, word :: words => do
      let value ← fromString p word
      let values ← parseParams params words
      some (value :: values)
  | _, _ => none

def Signature.parse (signature : Signature) (words : List Text) : Option Args :=
  match signature with
  | .variadic params => (parseParams params words).map .values
  | .freeform => some (.words words)

/-- `PrintDesc<Args...>::Dump`, or what `Help` has in its place. -/
def Signature.types (signature : Signature) : Text :=
  match signature with
  | .variadic params => params.flatMap fun p => text " " ++ typeDesc p
  | .freeform => text " <list of strings>"

theorem length_of_parseParams {params : List Param} {words : List Text} {values : List Value}
    (parsed : parseParams params words = some values) : words.length = params.length := by
  induction params generalizing words values with
  | nil =>
      cases words with
      | nil => rfl
      | cons word words => cases parsed
  | cons p params ih =>
      cases words with
      | nil => cases parsed
      | cons word words =>
          obtain ⟨value, -, parsed⟩ := Option.bind_eq_some_iff.mp parsed
          obtain ⟨rest, parsedRest, -⟩ := Option.bind_eq_some_iff.mp parsed
          simp [ih parsedRest]

/-- A function command; `H` names its handler. -/
structure Function (H : Type v) where
  name : Text
  signature : Signature
  handler : H
  description : Text
  parameterDesc : List Text := []
  enabled : Bool := true

namespace Function

variable {H : Type v}

/-- `Exec`: the handler and its arguments, when the command accepts the line. -/
def exec (f : Function H) (cmdLine : List Text) : Option (H × Args) :=
  match cmdLine with
  | [] => none
  | word :: words =>
      if f.enabled ∧ f.name = word then (f.signature.parse words).map fun args => (f.handler, args)
      else none

/-- `Help`. -/
def help (f : Function H) : Text :=
  if f.enabled then
    let descs := f.parameterDesc.flatMap fun s => text " <" ++ s ++ text ">"
    text " - " ++ f.name ++ (if f.parameterDesc.isEmpty then f.signature.types else descs) ++
      text "\n\t" ++ f.description ++ text "\n"
  else []

/-- How many words the command takes, when it takes a number of them. -/
def arity (f : Function H) : Option Nat :=
  match f.signature with
  | .variadic params => some params.length
  | .freeform => none

theorem exec_eq_none {f : Function H} {word : Text} (other : f.name ≠ word) (words : List Text) :
    f.exec (word :: words) = none := by
  simp [exec, other]

/-- A line that the command accepts has its name and, but for free forms, its number of words. -/
theorem exec_isSome {f : Function H} {words : List Text} (accepts : (f.exec words).isSome = true) :
    f.enabled = true ∧ ∃ rest, words = f.name :: rest ∧ ∀ n, f.arity = some n → rest.length = n := by
  cases words with
  | nil => cases accepts
  | cons word rest =>
      simp only [exec] at accepts
      split at accepts
      · rename_i named
        obtain ⟨enabled, rfl⟩ := named
        refine ⟨enabled, rest, rfl, fun n arity => ?_⟩
        unfold Function.arity at arity
        split at arity
        · rename_i params signature
          cases arity
          rw [Option.isSome_map, signature, Signature.parse, Option.isSome_map] at accepts
          obtain ⟨values, parsed⟩ := Option.isSome_iff_exists.mp accepts
          exact length_of_parseParams parsed
        · cases arity
      · cases accepts

end Function

/-! ## Menus -/

inductive Command (ι : Type u) (H : Type v) where
  | function (f : Function H)
  | menu (m : ι)

structure Menu (ι : Type u) (H : Type v) where
  name : Text
  description : Text
  prompt : Text
  parent : Option ι
  cmds : List (Command ι H)
  enabled : Bool := true

/-- The menus, each under its address. -/
abbrev Menus (ι : Type u) (H : Type v) := ι → Menu ι H

/-- What a line that is accepted does. -/
inductive Action (ι : Type u) (H : Type v) where
  /-- `session.Current(this)`. -/
  | enter (m : ι)
  | call (handler : H) (args : Args)

/-- `ParentShortcut`. -/
def parentShortcut : Text := text ".."

namespace Menus

variable {ι : Type u} {H : Type v} (menus : Menus ι H)

/-- `Menu::HandleCommand`. -/
def handleCommand : List Text → List Text → ι → Option (Action ι H)
  | [], _, _ => none
  | word :: rest, cmdNames, m =>
      if !(menus m).enabled then none
      else if word ∈ cmdNames then
        if rest = [] then some (.enter m)
        else
          ((menus m).cmds.findSome? fun cmd =>
            match cmd with
            | .function f => (f.exec rest).map fun (handler, args) => .call handler args
            | .menu n => handleCommand rest [(menus n).name] n).or
          ((menus m).parent.bind fun p => handleCommand rest [(menus p).name, parentShortcut] p)
      else none

/-- `Command::Exec`. -/
def exec (cmdLine : List Text) : Command ι H → Option (Action ι H)
  | .function f => (f.exec cmdLine).map fun (handler, args) => .call handler args
  | .menu m => menus.handleCommand cmdLine [(menus m).name] m

/-- `Menu::ExecParent`. -/
def execParent (cmdLine : List Text) (m : ι) : Option (Action ι H) :=
  menus.handleCommand cmdLine [(menus m).name, parentShortcut] m

/-- `Menu::ScanCmds`. -/
def scanCmds (m : ι) (cmdLine : List Text) : Option (Action ι H) :=
  if !(menus m).enabled then none
  else
    ((menus m).cmds.findSome? (menus.exec cmdLine)).or
      ((menus m).parent.bind (menus.execParent cmdLine))

/-- `Menu::Help`. -/
def helpOf (m : ι) : Text :=
  if (menus m).enabled then
    text " - " ++ (menus m).name ++ text "\n\t" ++ (menus m).description ++ text "\n"
  else []

/-- `Menu::MainHelp`. -/
def mainHelp (m : ι) : Text :=
  if (menus m).enabled then
    ((menus m).cmds.flatMap fun cmd =>
      match cmd with
      | .function f => f.help
      | .menu n => menus.helpOf n) ++
    (match (menus m).parent with
      | some p => menus.helpOf p
      | none => [])
  else []

/-! ## Lines that begin with a path -/

variable {menus}

/-- **A menu that answers to the first word** takes the rest as a line of its own. -/
theorem handleCommand_eq {m : ι} {word : Text} {rest cmdNames : List Text}
    (enabled : (menus m).enabled = true) (named : word ∈ cmdNames) (more : rest ≠ []) :
    menus.handleCommand (word :: rest) cmdNames m = menus.scanCmds m rest := by
  have same : (fun cmd : Command ι H =>
      match cmd with
      | .function f => (f.exec rest).map fun (handler, args) => Action.call handler args
      | .menu n => menus.handleCommand rest [(menus n).name] n) = menus.exec rest := by
    funext cmd
    cases cmd <;> rfl
  simp only [handleCommand, enabled, Bool.not_true, Bool.false_eq_true, if_false, named, if_true,
    more, scanCmds]
  rw [same]
  rfl

theorem handleCommand_singleton {m : ι} {word : Text} {cmdNames : List Text} :
    menus.handleCommand [word] cmdNames m =
      if (menus m).enabled ∧ word ∈ cmdNames then some (.enter m) else none := by
  by_cases enabled : (menus m).enabled = true
  · simp [handleCommand, enabled]
  · simp [handleCommand, enabled]

theorem handleCommand_eq_none {m : ι} {word : Text} {rest cmdNames : List Text}
    (other : ¬ ((menus m).enabled = true ∧ word ∈ cmdNames)) :
    menus.handleCommand (word :: rest) cmdNames m = none := by
  by_cases enabled : (menus m).enabled = true
  · have unnamed : word ∉ cmdNames := fun named => other ⟨enabled, named⟩
    simp [handleCommand, enabled, unnamed]
  · simp [handleCommand, enabled]

/-- The menus that answer to a word in menu `m`: those among its commands, then its
parent. -/
def answering (menus : Menus ι H) (m : ι) (word : Text) : List ι :=
  ((menus m).cmds.filterMap fun cmd =>
    match cmd with
    | .function _ => none
    | .menu n => if (menus n).enabled ∧ word = (menus n).name then some n else none) ++
  ((menus m).parent.toList.filter fun p =>
    (menus p).enabled ∧ word ∈ [(menus p).name, parentShortcut])

/-- The menus among the commands. -/
def menu? : Command ι H → Option ι
  | .function _ => none
  | .menu n => some n

theorem answering_eq (m : ι) (word : Text) :
    menus.answering m word =
      ((menus m).cmds.filterMap menu?).filter
        (fun n => (menus n).enabled ∧ word = (menus n).name) ++
      ((menus m).parent.toList.filter fun p =>
        (menus p).enabled ∧ word ∈ [(menus p).name, parentShortcut]) := by
  rw [answering, List.filter_filterMap]
  congr 2
  funext cmd
  cases cmd with
  | function f => rfl
  | menu n =>
      by_cases answers : (menus n).enabled = true ∧ word = (menus n).name <;>
        simp [menu?, Option.filter, answers]

/-- No function has the name of a menu that can be entered. -/
def Distinct (menus : Menus ι H) : Prop :=
  ∀ m word, menus.answering m word ≠ [] →
    (∀ f, Command.function f ∈ (menus m).cmds → f.name ≠ word) ∧
      (menus.answering m word).length ≤ 1

theorem handleCommand_enter {m n : ι} {word : Text} {cmdNames : List Text}
    (found : menus.handleCommand [word] cmdNames m = some (.enter n)) :
    n = m ∧ (menus m).enabled = true ∧ word ∈ cmdNames := by
  rw [handleCommand_singleton] at found
  split at found
  · rename_i answers
    cases found
    exact ⟨rfl, answers⟩
  · cases found

/-- A word that enters a menu is answered by it. -/
theorem mem_answering_of_enter {m n : ι} {word : Text}
    (found : menus.scanCmds m [word] = some (.enter n)) :
    (menus m).enabled = true ∧ n ∈ menus.answering m word := by
  unfold scanCmds at found
  split at found
  · cases found
  · rename_i enabled
    refine ⟨by simpa using enabled, ?_⟩
    rcases Option.or_eq_some_iff.mp found with first | ⟨-, second⟩
    · obtain ⟨cmd, member, executed⟩ := List.exists_of_findSome?_eq_some first
      cases cmd with
      | function f =>
          obtain ⟨call, -, absurd'⟩ := Option.map_eq_some_iff.mp executed
          cases absurd'
      | menu k =>
          obtain ⟨rfl, answers, named⟩ := handleCommand_enter executed
          refine List.mem_append_left _ (List.mem_filterMap.mpr ⟨.menu n, member, ?_⟩)
          simp [answers, List.mem_singleton.mp named]
    · obtain ⟨p, parent, executed⟩ := Option.bind_eq_some_iff.mp second
      obtain ⟨rfl, answers⟩ := handleCommand_enter executed
      refine List.mem_append_right _ (List.mem_filter.mpr ⟨?_, decide_eq_true answers⟩)
      simp [parent]

/-- What a menu does with a line for which it answers: its own scan. -/
def answer (menus : Menus ι H) (rest : List Text) (n : ι) : Option (Action ι H) :=
  if rest = [] then some (.enter n) else menus.scanCmds n rest

theorem handleCommand_answer {m : ι} {word : Text} {cmdNames : List Text} (rest : List Text) :
    menus.handleCommand (word :: rest) cmdNames m =
      if (menus m).enabled ∧ word ∈ cmdNames then menus.answer rest m else none := by
  split
  · rename_i answers
    unfold answer
    split
    · rename_i last
      rw [last, handleCommand_singleton, if_pos answers]
    · rename_i more
      exact handleCommand_eq answers.1 answers.2 more
  · rename_i other
    exact handleCommand_eq_none other

/-- The functions of other names do not take part. -/
theorem findSome?_exec {word : Text} (rest : List Text) (cmds : List (Command ι H))
    (noFunction : ∀ f, Command.function f ∈ cmds → f.name ≠ word) :
    cmds.findSome? (menus.exec (word :: rest)) =
      (cmds.filterMap fun cmd =>
        match cmd with
        | .function _ => none
        | .menu n => if (menus n).enabled ∧ word = (menus n).name then some n else none).findSome?
          (menus.answer rest) := by
  induction cmds with
  | nil => rfl
  | cons cmd cmds ih =>
      have later := ih fun f member => noFunction f (List.mem_cons_of_mem cmd member)
      cases cmd with
      | function f =>
          have other := noFunction f (List.mem_cons_self ..)
          simp [exec, Function.exec_eq_none other, later]
      | menu n =>
          rw [List.findSome?_cons, exec, handleCommand_answer, later]
          by_cases answers : (menus n).enabled = true ∧ word = (menus n).name
          · simp [answers.1, answers.2, List.findSome?_cons]
          · simp [answers]

theorem scanCmds_answering {m : ι} {word : Text} (enabled : (menus m).enabled = true)
    (noFunction : ∀ f, Command.function f ∈ (menus m).cmds → f.name ≠ word) (rest : List Text) :
    menus.scanCmds m (word :: rest) =
      (menus.answering m word).findSome? (menus.answer rest) := by
  have parent : (menus m).parent.bind (menus.execParent (word :: rest)) =
      ((menus m).parent.toList.filter fun p =>
        (menus p).enabled ∧ word ∈ [(menus p).name, parentShortcut]).findSome?
          (menus.answer rest) := by
    cases (menus m).parent with
    | none => rfl
    | some p =>
        rw [Option.bind_some, execParent, handleCommand_answer]
        by_cases answers : (menus p).enabled = true ∧ word ∈ [(menus p).name, parentShortcut]
        · rw [if_pos answers]
          simp only [Option.toList_some, List.filter_cons, answers, decide_true, if_true,
            List.filter_nil, and_self]
          simp
        · rw [if_neg answers]
          simp only [Option.toList_some, List.filter_cons, answers, decide_false]
          simp
  simp only [scanCmds, enabled, Bool.not_true, Bool.false_eq_true, if_false]
  rw [findSome?_exec rest _ noFunction, parent, answering, List.findSome?_append]

/-- Where nothing else answers, a word enters the menu that does. -/
theorem scanCmds_of_mem_answering (distinct : menus.Distinct) {m n : ι} {word : Text}
    (enabled : (menus m).enabled = true) (member : n ∈ menus.answering m word)
    (rest : List Text) : menus.scanCmds m (word :: rest) = menus.answer rest n := by
  obtain ⟨noFunction, one⟩ := distinct m word (List.ne_nil_of_mem member)
  have only' : menus.answering m word = [n] := by
    obtain ⟨a, single⟩ := List.length_eq_one_iff.mp
      (Nat.le_antisymm one (List.length_pos_of_mem member))
    rw [single] at member ⊢
    rw [List.mem_singleton.mp member]
  rw [scanCmds_answering enabled noFunction, only', List.findSome?_singleton]

/-! ## What is called -/

/-- A function of some menu takes the end of the line. -/
def Takes (menus : Menus ι H) (words : List Text) (handler : H) (args : Args) : Prop :=
  ∃ m f rest, .function f ∈ (menus m).cmds ∧ rest <:+ words ∧ f.exec rest = some (handler, args)

theorem Takes.cons {word : Text} {words : List Text} {handler : H} {args : Args}
    (takes : menus.Takes words handler args) : menus.Takes (word :: words) handler args := by
  obtain ⟨m, f, rest, inside, ends, taken⟩ := takes
  exact ⟨m, f, rest, inside, ends.trans (List.suffix_cons word words), taken⟩

/-- A scan calls a function of the menu itself, or one that another menu calls. -/
theorem takes_of_scanCmds {m : ι} {words : List Text} {handler : H} {args : Args}
    (others : ∀ n cmdNames, menus.handleCommand words cmdNames n = some (.call handler args) →
      menus.Takes words handler args)
    (found : menus.scanCmds m words = some (.call handler args)) :
    menus.Takes words handler args := by
  unfold scanCmds at found
  split at found
  · cases found
  · rcases Option.or_eq_some_iff.mp found with first | ⟨-, second⟩
    · obtain ⟨cmd, member, executed⟩ := List.exists_of_findSome?_eq_some first
      cases cmd with
      | function f =>
          obtain ⟨⟨h, a⟩, taken, same⟩ := Option.map_eq_some_iff.mp executed
          cases same
          exact ⟨m, f, words, member, List.suffix_rfl, taken⟩
      | menu n => exact others n _ executed
    · obtain ⟨p, -, executed⟩ := Option.bind_eq_some_iff.mp second
      exact others p _ executed

theorem takes_of_handleCommand {words cmdNames : List Text} {m : ι} {handler : H} {args : Args}
    (found : menus.handleCommand words cmdNames m = some (.call handler args)) :
    menus.Takes words handler args := by
  induction words generalizing m cmdNames with
  | nil => simp [handleCommand] at found
  | cons word words ih =>
      rw [handleCommand_answer] at found
      split at found
      · unfold answer at found
        split at found
        · cases found
        · exact (takes_of_scanCmds (fun n names => ih) found).cons
      · cases found

/-- **What a line calls** is a function of some menu, with the words after its name. -/
theorem takes_of_call {words : List Text} {m : ι} {handler : H} {args : Args}
    (found : menus.scanCmds m words = some (.call handler args)) :
    menus.Takes words handler args :=
  takes_of_scanCmds (fun _ _ => takes_of_handleCommand) found

/-! ## Paths -/

/-- The menu that a path leads to, one word at a time. -/
def follow (menus : Menus ι H) (m : ι) : List Text → Option ι
  | [] => some m
  | word :: path =>
      match menus.scanCmds m [word] with
      | some (.enter n) => follow menus n path
      | _ => none

/-- **Lines that begin with a path.**  They do what the rest of the line does in the
menu that the path leads to, word by word. -/
theorem scanCmds_path (distinct : menus.Distinct) {m n : ι} {path rest : List Text}
    (followed : menus.follow m path = some n) (more : rest ≠ []) :
    menus.scanCmds m (path ++ rest) = menus.scanCmds n rest := by
  induction path generalizing m with
  | nil =>
      cases followed
      rfl
  | cons word path ih =>
      simp only [follow] at followed
      split at followed
      · rename_i k found
        obtain ⟨enabled, member⟩ := mem_answering_of_enter found
        have tail : path ++ rest ≠ [] := by simp [more]
        rw [List.cons_append, scanCmds_of_mem_answering distinct enabled member, answer,
          if_neg tail]
        exact ih followed
      · cases followed

end Menus

end Lynx.Cli
