/-
# Repl.Commands — the commands of lynx

`Repl::Repl` builds one menu tree and one set of handlers for every session.  What
the handlers share is `Shared`: the sessions, streams and sinks of `Repl.Session`,
the colours, which of `color` and `nocolor` can be called, the commands that ended
sessions have left behind, and the sockets, which the exit action of a telnet session
shuts down.

`program` is this application for the library of `Cli`.  `program_polite` is what
`Cli.Editing` asks for, and `distinct_menus` what `Cli.Menu` does; the table of
`table` is drawn by another library and is a parameter.
-/
import Lynx.Cli.Editing
import Lynx.Cli.Recall
import Lynx.Repl.Session
import Mathlib.Data.List.Pairwise

namespace Lynx.Repl

open Lynx.Cli
open Lynx.Cli.FromString (printInt)
open Lynx.Cli.Split (Bare split)

set_option autoImplicit false

/-! ## What the sessions share -/

/-- The socket of a telnet session, as `shutdown` finds it. -/
inductive Socket where
  | connected
  /-- Open, but the client has reset the connection. -/
  | reset
  | closed
  deriving DecidableEq, Repr

structure Shared where
  repl : State
  /-- `Color()`. -/
  color : Bool := false
  /-- `colorCmd` and `nocolorCmd`: which of the two is enabled. -/
  colorCmd : Bool := true
  nocolorCmd : Bool := true
  /-- Both have been removed. -/
  removed : Bool := false
  /-- `VolatileHistoryStorage::commands`. -/
  commands : List Text := []
  /-- The sockets by connection, as far as there are connections. -/
  sockets : List Socket := []

namespace Shared

def perform (s : Shared) (e : Event) : Shared := { s with repl := effect s.repl e }

/-- `VolatileHistoryStorage::Store`, of 1000 commands. -/
def store (s : Shared) (cmds : List Text) : Shared :=
  let commands := s.commands ++ cmds
  { s with commands := commands.drop (commands.length - 1000) }

def socket (s : Shared) (connection : Nat) : Socket := s.sockets.getD connection .closed

/-- `SetColor` or `SetNoColor`, and the other command. -/
def setColor (s : Shared) (color : Bool) : Shared :=
  { s with color := color, colorCmd := !color, nocolorCmd := color }

end Shared

/-! ## The menus -/

inductive MenuId where
  | cli
  | sub
  | subsub
  deriving DecidableEq, Repr

inductive Handler where
  | hello
  | setTimeout
  | timeout
  | monitor
  | nomonitor
  | helloEverysession
  | answer
  | file
  | echo
  | echo2
  | error
  | reverse
  | add
  | add3
  | sort
  | bar
  | color
  | nocolor
  | removecmds
  | table
  | helloSub
  | demo
  | helloSubsub
  deriving DecidableEq, Repr

/-- The two commands that can be disabled and removed. -/
def colorCmds (s : Shared) : List (Command MenuId Handler) :=
  if s.removed then []
  else [
    .function ⟨text "color", .variadic [], .color, text "Enable colors in the cli", [],
      s.colorCmd⟩,
    .function ⟨text "nocolor", .variadic [], .nocolor, text "Disable colors in the cli", [],
      s.nocolorCmd⟩]

def rootCmds (s : Shared) : List (Command MenuId Handler) :=
  [ .function ⟨text "hello", .variadic [], .hello, text "Print hello world", [], true⟩,
    .function ⟨text "timeout", .variadic [.int], .setTimeout, text "Set timeout", [], true⟩,
    .function ⟨text "timeout", .variadic [], .timeout, text "Get timeout", [], true⟩,
    .function ⟨text "monitor", .variadic [], .monitor, text "enter monitor mode", [], true⟩,
    .function ⟨text "nomonitor", .variadic [], .nomonitor, text "exit monitor mode", [], true⟩,
    .function ⟨text "hello_everysession", .variadic [], .helloEverysession,
      text "Print hello everybody on all open sessions", [], true⟩,
    .function ⟨text "answer", .variadic [.int], .answer,
      text "Print the answer to Life, the Universe and Everything", [], true⟩,
    .function ⟨text "file", .variadic [.int], .file,
      text "Print the file descriptor specified", [text "file_descriptor"], true⟩,
    .function ⟨text "echo", .variadic [.string], .echo,
      text "Print the string passed as parameter", [text "string to echo"], true⟩,
    .function ⟨text "echo", .variadic [.string, .string], .echo2,
      text "Print the strings passed as parameter",
      [text "first string to echo", text "second string to echo"], true⟩,
    .function ⟨text "error", .variadic [], .error,
      text "Throw an exception in the command handler", [], true⟩,
    .function ⟨text "reverse", .variadic [.string], .reverse, text "Print the reverse string",
      [text "string_to_revert"], true⟩,
    .function ⟨text "add", .variadic [.int, .int], .add, text "Print the sum of the two numbers",
      [text "first_term", text "second_term"], true⟩,
    .function ⟨text "add", .variadic [.int, .int, .int], .add3,
      text "Print the sum of the three numbers", [], true⟩,
    .function ⟨text "sort", .freeform, .sort, text "Alphabetically sort a list of words",
      [text "list of strings separated by space"], true⟩,
    .function ⟨text "bar", .variadic [.bar], .bar, text "Custom type", [], true⟩ ] ++
  colorCmds s ++
  [ .function ⟨text "removecmds", .variadic [], .removecmds,
      text "Remove both color and nocolor commands from the menu", [], true⟩,
    .function ⟨text "table", .variadic [], .table, text "Show table", [], true⟩,
    .menu .sub ]

def menus (s : Shared) : Menus MenuId Handler
  | .cli =>
      { name := text "cli", description := text "(menu)", prompt := text "cli", parent := none
        cmds := rootCmds s }
  | .sub =>
      { name := text "sub", description := text "Enter a submenu", prompt := text "cli-submenu"
        parent := some .cli
        cmds := [
          .function ⟨text "hello", .variadic [], .helloSub,
            text "Print hello world in the submenu", [], true⟩,
          .function ⟨text "demo", .variadic [], .demo, text "Print a demo string", [], true⟩,
          .menu .subsub] }
  | .subsub =>
      { name := text "subsub", description := text "Enter a submenu of second level"
        prompt := text "cli-submenu-subsub", parent := some .sub
        cmds := [
          .function ⟨text "hello", .variadic [], .helloSubsub,
            text "Print hello world in the sub-submenu", [], true⟩] }

/-! ## The handlers -/

/-- What a handler writes, and nothing else. -/
def prints (s : Shared) (t : Text) : Outcome Shared := { out := t, shared := s }

/-- `operator<<` of an `int`. -/
def int (n : Int32) : Text := printInt n.toInt

/-- `table` is what the table of `table` looks like. -/
def handle (table : Text) (self : Stream) (h : Handler) (args : Args) (s : Shared) :
    Outcome Shared :=
  match h, args with
  | .hello, _ => prints s (text "Hello, world\n")
  | .setTimeout, .values [.int sec] => prints s (text "Set timeout to: " ++ int sec ++ text "\n")
  | .timeout, _ => prints s (text "timeout: " ++ int 3 ++ text "\n")
  | .monitor, _ => prints (s.perform (.monitor self)) []
  | .nomonitor, _ => prints (s.perform (.nomonitor self)) []
  | .helloEverysession, _ =>
      prints (s.perform (.helloEverysession self))
        (if self ∈ s.repl.cout then text "Hello, everybody\n" else [])
  | .answer, .values [.int x] => prints s (text "The answer is: " ++ int x ++ text "\n")
  | .file, .values [.int fd] => prints s (text "file descriptor: " ++ int fd ++ text "\n")
  | .echo, .values [.string arg] => prints s (arg ++ text "\n")
  | .echo2, .values [.string arg1, .string arg2] =>
      prints s (arg1 ++ text " " ++ arg2 ++ text "\n")
  | .error, _ => { what := some (text "Error in cmd"), shared := s }
  | .reverse, .values [.string arg] => prints s (arg.reverse ++ text "\n")
  | .add, .values [.int x, .int y] =>
      prints s (int x ++ text " + " ++ int y ++ text " = " ++ int (x + y) ++ text "\n")
  | .add3, .values [.int x, .int y, .int z] =>
      prints s (int x ++ text " + " ++ int y ++ text " + " ++ int z ++ text " = " ++
        int (x + y + z) ++ text "\n")
  | .sort, .words data =>
      prints s (text "sorted list: " ++
        (data.mergeSort fun a b => decide (a ≤ b)).flatMap (fun word => word ++ text " ") ++
        text "\n")
  | .bar, .values [.bar x] => prints s (text "You entered bar: " ++ int x ++ text "\n")
  | .color, _ => prints (s.setColor true) (text "Colors ON\n")
  | .nocolor, _ => prints (s.setColor false) (text "Colors OFF\n")
  | .removecmds, _ => prints { s with removed := true } []
  | .table, _ => prints s (table ++ text "\n")
  | .helloSub, _ => prints s (text "Hello, submenu world\n")
  | .demo, _ => prints s (text "This is a sample!\n")
  | .helloSubsub, _ => prints s (text "Hello, subsubmenu world\n")
  -- the types of the parameters leave nothing else
  | _, _ => prints s []

/-- What `shutdown` throws. -/
def Socket.shutdown : Socket → Option Text
  | .connected => none
  | .reset => some (text "shutdown: Transport endpoint is not connected")
  | .closed => some (text "shutdown: Bad file descriptor")

/-- The exit action of the session: of the local terminal, of the file session, and of
a telnet session with `Disconnect`. -/
def sessionExit (self : Stream) (s : Shared) : Outcome Shared :=
  match self with
  | .stdout => prints (s.perform (.exit .stdout)) (text "Closing App by Cli...\n")
  | .outfile => prints (s.perform (.exit .outfile)) []
  | .telnet n =>
      let out := text "Terminating this session...\n"
      match (s.socket n).shutdown with
      | some what => { out := out, what := some what, shared := s.perform (.exit self) }
      | none => prints { s.perform (.exit self) with sockets := s.sockets.set n .closed } out

theorem Socket.shutdown_eq_none {socket : Socket} : socket.shutdown = none ↔ socket = .connected := by
  cases socket <;> simp [Socket.shutdown]

theorem what_sessionExit (n : Nat) (s : Shared) :
    (sessionExit (.telnet n) s).what = (s.socket n).shutdown := by
  simp only [sessionExit]
  cases (s.socket n).shutdown <;> rfl

theorem sockets_sessionExit {n : Nat} {s : Shared} (calm : (sessionExit (.telnet n) s).what = none) :
    (sessionExit (.telnet n) s).shared.sockets = s.sockets.set n .closed := by
  rw [what_sessionExit] at calm
  simp only [sessionExit, calm, prints]

/-- The application. -/
def program (table : Text) : Program MenuId Handler Shared Stream where
  menus := menus
  rootMenu := .cli
  color := Shared.color
  handler := handle table
  sessionExit := sessionExit
  cliExit := text "Goodbye and thanks for all the fish.\n"
  stdException cmd what :=
    text "Exception caught in cli handler: " ++ what ++ text " handling command: " ++ cmd ++
      text ".\n"
  storeCommands cmds s := s.store cmds

/-! ## What the library asks for -/

section Menus

variable (s : Shared)

@[simp] theorem name_cli : (menus s .cli).name = text "cli" := rfl
@[simp] theorem name_sub : (menus s .sub).name = text "sub" := rfl
@[simp] theorem name_subsub : (menus s .subsub).name = text "subsub" := rfl
@[simp] theorem parent_cli : (menus s .cli).parent = none := rfl
@[simp] theorem parent_sub : (menus s .sub).parent = some .cli := rfl
@[simp] theorem parent_subsub : (menus s .subsub).parent = some .sub := rfl

@[simp] theorem enabled_menus (m : MenuId) : (menus s m).enabled = true := by
  cases m <;> rfl

/-- The shared state of lynx before the first command, with all commands enabled. -/
def untouched : Shared := { repl := boot ⟨true, false, false⟩ }

/-- The command, as if it were enabled. -/
def enable : Command MenuId Handler → Command MenuId Handler
  | .function f => .function { f with enabled := true }
  | .menu n => .menu n

/-- No state adds a command. -/
theorem map_enable_sublist (m : MenuId) :
    List.Sublist ((menus s m).cmds.map enable) (menus untouched m).cmds := by
  cases m with
  | cli =>
      have colors : List.Sublist ((colorCmds s).map enable) (colorCmds untouched) := by
        unfold colorCmds
        split
        · exact List.nil_sublist _
        · exact List.Sublist.refl _
      have whole : (menus untouched .cli).cmds = rootCmds untouched := rfl
      rw [whole]
      simp only [menus, rootCmds, List.map_append]
      exact ((List.Sublist.refl _).append colors).append (List.Sublist.refl _)
  | sub => exact List.Sublist.refl _
  | subsub => exact List.Sublist.refl _

/-- The names of the commands that every session has. -/
def globalNames : List Text := [text "help", text "exit", text "history", text "!"]

/-- Names are bare words of cells, and no function has that of a menu or of a command that
every session has. -/
def PlainFunction (f : Cli.Function Handler) : Prop :=
  (Printable f.name ∧ Bare f.name ∧ f.name ∉ globalNames ∧
    f.name ∉ [text "cli", text "sub", text "subsub", parentShortcut]) ∧
    NoEscape f.description ∧ ∀ desc ∈ f.parameterDesc, NoEscape desc

instance : DecidablePred PlainFunction := fun f =>
  inferInstanceAs (Decidable ((Printable f.name ∧ Bare f.name ∧ f.name ∉ globalNames ∧
    f.name ∉ [text "cli", text "sub", text "subsub", parentShortcut]) ∧
    NoEscape f.description ∧ ∀ desc ∈ f.parameterDesc, NoEscape desc))

def functionOf : Command MenuId Handler → Option (Cli.Function Handler)
  | .function f => some f
  | .menu _ => none

theorem plainFunctions_untouched (m : MenuId) :
    ∀ f ∈ (menus untouched m).cmds.filterMap functionOf, PlainFunction f := by
  cases m <;> decide +kernel

theorem plainFunction {m : MenuId} {f : Cli.Function Handler}
    (inside : .function f ∈ (menus s m).cmds) : PlainFunction f := by
  have enabled := (map_enable_sublist s m).subset (List.mem_map_of_mem inside)
  exact plainFunctions_untouched m { f with enabled := true }
    (List.mem_filterMap.mpr ⟨_, enabled, rfl⟩)

theorem printableNames_menus : (menus s).PrintableNames where
  menu m := by
    cases m
    · exact (by decide : Printable (text "cli"))
    · exact (by decide : Printable (text "sub"))
    · exact (by decide : Printable (text "subsub"))
  function _ f inside := (plainFunction s inside).1.1

theorem bareNames_menus : (menus s).BareNames where
  menu m := by
    cases m
    · exact (by decide : Bare (text "cli"))
    · exact (by decide : Bare (text "sub"))
    · exact (by decide : Bare (text "subsub"))
  function _ f inside := (plainFunction s inside).1.2.1

/-- What answers to a word, in each menu. -/
theorem answering_menus (m : MenuId) (word : Text) :
    (menus s).answering m word =
      match m with
      | .cli => if word = text "sub" then [.sub] else []
      | .sub =>
          (if word = text "subsub" then [.subsub] else []) ++
            (if word = text "cli" ∨ word = parentShortcut then [.cli] else [])
      | .subsub => if word = text "sub" ∨ word = parentShortcut then [.sub] else [] := by
  have child : (menus s m).cmds.filterMap Menus.menu? =
      match m with
      | .cli => [.sub]
      | .sub => [.subsub]
      | .subsub => [] := by
    cases m with
    | cli =>
        simp only [menus, rootCmds, colorCmds]
        cases s.removed <;> rfl
    | sub => rfl
    | subsub => rfl
  rw [Menus.answering_eq, child]
  cases m with
  | cli => by_cases named : word = text "sub" <;> simp [named]
  | sub =>
      by_cases named : word = text "subsub"
      · subst named
        rfl
      · by_cases up : word = text "cli" ∨ word = parentShortcut
        · rcases up with rfl | rfl <;> rfl
        · obtain ⟨noName, noShortcut⟩ := not_or.mp up
          simp [named, noName, noShortcut]
  | subsub =>
      by_cases up : word = text "sub" ∨ word = parentShortcut
      · rcases up with rfl | rfl <;> rfl
      · obtain ⟨noName, noShortcut⟩ := not_or.mp up
        simp [noName, noShortcut]

/-- No function of lynx has the name of a menu. -/
theorem distinct_menus : (menus s).Distinct := by
  intro m word some'
  have known : word ∈ [text "cli", text "sub", text "subsub", parentShortcut] := by
    rw [answering_menus] at some'
    by_contra other
    simp only [List.mem_cons, List.not_mem_nil, or_false, not_or] at other
    cases m <;> simp [other] at some'
  refine ⟨fun f inside same => ?_, ?_⟩
  · exact (plainFunction s inside).1.2.2.2 (same ▸ known)
  · rw [answering_menus]
    cases m with
    | cli => simp only; split <;> simp
    | sub =>
        by_cases down : word = text "subsub"
        · have noUp : ¬ (word = text "cli" ∨ word = parentShortcut) := by
            rw [down]
            decide
          simp only [noUp, if_false, List.append_nil]
          split <;> simp
        · simp only [down, if_false, List.nil_append]
          split <;> simp
    | subsub => simp only; split <;> simp

/-- Commands of one name that take different numbers of words. -/
def Apart (f g : Cli.Function Handler) : Prop :=
  f.name ≠ g.name ∨ f.arity ≠ g.arity ∧ f.arity ≠ none ∧ g.arity ≠ none

instance (f g : Cli.Function Handler) : Decidable (Apart f g) :=
  inferInstanceAs (Decidable (f.name ≠ g.name ∨
    f.arity ≠ g.arity ∧ f.arity ≠ none ∧ g.arity ≠ none))

theorem apart_untouched (m : MenuId) :
    ((menus untouched m).cmds.filterMap functionOf).Pairwise Apart := by
  cases m <;> decide +kernel

/-- In every state. -/
theorem apart_menus (m : MenuId) : ((menus s m).cmds.filterMap functionOf).Pairwise Apart := by
  have functions : ((menus s m).cmds.map enable).filterMap functionOf =
      ((menus s m).cmds.filterMap functionOf).map fun f => { f with enabled := true } := by
    rw [List.filterMap_map, List.map_filterMap]
    congr 1
    funext cmd
    cases cmd <;> rfl
  have enabled := (apart_untouched m).sublist ((map_enable_sublist s m).filterMap functionOf)
  rw [functions, List.pairwise_map] at enabled
  exact enabled

/-- Two functions that accept one line are not apart. -/
theorem not_apart_of_exec {f g : Cli.Function Handler} {words : List Text}
    (acceptsF : (f.exec words).isSome = true) (acceptsG : (g.exec words).isSome = true) :
    ¬ Apart f g := by
  obtain ⟨-, rest, rfl, arityF⟩ := Function.exec_isSome acceptsF
  obtain ⟨-, rest', same, arityG⟩ := Function.exec_isSome acceptsG
  obtain ⟨name, rfl⟩ := List.cons.inj same
  rintro (other | ⟨other, someF, someG⟩)
  · exact other name
  · obtain ⟨a, isA⟩ := Option.ne_none_iff_exists'.mp someF
    obtain ⟨b, isB⟩ := Option.ne_none_iff_exists'.mp someG
    rw [isA, isB, ← arityF a isA, ← arityG b isB] at other
    exact other rfl

/-- Of a list that is pairwise apart, at most one is chosen by what excludes apartness. -/
theorem countP_le_one {α : Type _} {R : α → α → Prop} {p : α → Bool} {items : List α}
    (pairwise : items.Pairwise R) (exclusive : ∀ a b, p a = true → p b = true → ¬ R a b) :
    items.countP p ≤ 1 := by
  induction pairwise with
  | nil => simp
  | @cons a rest first _ ih =>
      by_cases chosen : p a = true
      · have others : rest.countP p = 0 :=
          List.countP_eq_zero.mpr fun b member also => exclusive a b chosen also (first b member)
        rw [List.countP_cons_of_pos chosen, others]
      · rw [List.countP_cons_of_neg chosen]
        exact ih

/-- **No line is ambiguous**: whatever commands are enabled or removed, at most one function of a menu
accepts it, so that the order of the commands does not matter. -/
theorem unambiguous (m : MenuId) (words : List Text) :
    ((menus s m).cmds.filterMap functionOf).countP (fun f => (f.exec words).isSome) ≤ 1 :=
  countP_le_one (apart_menus s m) fun _ _ => not_apart_of_exec

theorem lines_mainHelp (m : MenuId) : Lines ((menus s).mainHelp m) := by
  apply Menus.lines_mainHelp
  · intro f inside
    obtain ⟨⟨name, -⟩, description, descs⟩ := plainFunction s inside
    exact Function.lines_help name.noEscape description descs
  · intro n
    cases n
    · exact (by decide : NoEscape (text "cli") ∧ NoEscape (text "(menu)"))
    · exact (by decide : NoEscape (text "sub") ∧ NoEscape (text "Enter a submenu"))
    · exact (by decide :
        NoEscape (text "subsub") ∧ NoEscape (text "Enter a submenu of second level"))

theorem printable_prompt (m : MenuId) : Printable (menus s m).prompt := by
  cases m
  · exact (by decide : Printable (text "cli"))
  · exact (by decide : Printable (text "cli-submenu"))
  · exact (by decide : Printable (text "cli-submenu-subsub"))

end Menus

/-! ## What the tab key offers can be entered -/

theorem globalScan_none {word : Text} (other : word ∉ globalNames) (rest : List Text) :
    globalScopeMenu.scanCmds () (word :: rest) = none := by
  have none' (f : Cli.Function Global) (named : f.name ∈ globalNames) :
      globalScopeMenu.exec (word :: rest) (.function f) = none := by
    have different : f.name ≠ word := fun same => other (same ▸ named)
    rw [Menus.exec, Function.exec_eq_none different]
    rfl
  have functions : (globalScopeMenu ()).cmds.findSome? (globalScopeMenu.exec (word :: rest)) =
      none := by
    simp only [globalScopeMenu, List.findSome?_cons, List.findSome?_nil]
    rw [none' _ (by simp [globalNames]), none' _ (by simp [globalNames]),
      none' _ (by simp [globalNames]), none' _ (by simp [globalNames])]
  have parent : (globalScopeMenu ()).parent = none := rfl
  have enabled : (globalScopeMenu ()).enabled = true := rfl
  rw [Menus.scanCmds, functions, parent, enabled]
  rfl

theorem mem_globalNames {line c : Text} (member : c ∈ globalScopeMenu.getCompletions () line) :
    c ∈ globalNames := by
  obtain ⟨words, leads, rfl, -⟩ := Menus.offers_of_mem member
  cases leads with
  | function inside _ =>
      simp only [globalScopeMenu, List.mem_cons, List.not_mem_nil, or_false,
        Command.function.injEq] at inside
      rcases inside with rfl | rfl | rfl | rfl <;> simp [Menus.join, globalNames]
  | menu inside _ => simp [globalScopeMenu] at inside
  | parent up _ => cases up
  | into inside _ => simp [globalScopeMenu] at inside
  | up up _ _ => cases up

theorem notGlobal_of_leads {s : Shared} {m : MenuId} {words : List Text}
    (leads : (menus s).Leads m words) : ∀ word ∈ words, word ∉ globalNames := by
  refine leads.each (fun n => ?_) (fun _ f inside => (plainFunction s inside).1.2.2.1) (by decide)
  cases n
  · exact (by decide : text "cli" ∉ globalNames)
  · exact (by decide : text "sub" ∉ globalNames)
  · exact (by decide : text "subsub" ∉ globalNames)

/-- **What the tab key offers can be entered.**  A completion is a command that every session
has; or its words lead through the menus to one of theirs, and with any words after it the line
does what that command does in its own menu. -/
theorem completion_obeyed {table : Text} {w : World MenuId Shared} {line c : Text}
    (offered : c ∈ (program table).getCompletions w line) (args : List Text) :
    c ∈ globalNames ∨
      ∃ path name n, split c = path ++ [name] ∧
        (menus w.shared).follow w.session.current path = some n ∧
        (menus w.shared).Names n name ∧
        globalScopeMenu.scanCmds () (split c ++ args) = none ∧
        (menus w.shared).scanCmds w.session.current (split c ++ args) =
          (menus w.shared).scanCmds n (name :: args) := by
  simp only [Program.getCompletions, List.mem_dedup, List.mem_mergeSort, List.mem_append] at offered
  rcases offered with own | below
  · exact .inl (mem_globalNames own)
  · refine .inr ?_
    obtain ⟨words, leads, rfl, -⟩ := Menus.offers_of_mem below
    have leads : (menus w.shared).Leads w.session.current words := leads
    obtain ⟨path, name, n, same, followed, named, scanned⟩ :=
      leads.scanCmds (distinct_menus w.shared) (enabled_menus w.shared) args
    rw [Menus.split_join (leads.bare (bareNames_menus w.shared))]
    refine ⟨path, name, n, same, followed, named, ?_, scanned⟩
    obtain ⟨first, rest, rfl⟩ := List.exists_cons_of_ne_nil leads.ne_nil
    exact globalScan_none (notGlobal_of_leads leads first (by simp)) _

/-- `su` in the first menu, with what is below `sub`. -/
theorem completion_obeyed_sub :
    text "sub" ∈ (program []).getCompletions ⟨{ current := .cli, history := { maxSize := 1 } },
        untouched⟩ (text "su") ∧
      ∃ path name n, split (text "sub") = path ++ [name] ∧
        (menus untouched).follow .cli path = some n ∧
        (menus untouched).scanCmds .cli (split (text "sub") ++ [text "demo"]) =
          (menus untouched).scanCmds n (name :: [text "demo"]) := by
  have offered : text "sub" ∈ (program []).getCompletions
      ⟨{ current := .cli, history := { maxSize := 1 } }, untouched⟩ (text "su") := by
    decide +kernel
  refine ⟨offered, ?_⟩
  rcases completion_obeyed offered [text "demo"] with global | ⟨path, name, n, words, followed, -, -, same⟩
  · exact absurd global (by decide)
  · exact ⟨path, name, n, words, followed, same⟩

/-! ## Handlers write whole lines -/

theorem noEscape_int (n : Int32) : NoEscape (int n) := by
  have digits : NoEscape (FromString.printNat n.toInt.natAbs) := by
    rintro c digit rfl
    exact absurd ((FromString.isDigits_printNat _).2 27 digit) (by decide)
  unfold int printInt
  split
  · exact List.forall_mem_cons.mpr ⟨by decide, digits⟩
  · exact digits

theorem polite_prints {s : Shared} {t : Text} (lines : Lines t) : (prints s t).Polite :=
  ⟨lines, fun what absurd' => by cases absurd'⟩

/-- A line of a text without escape sequences. -/
theorem polite_line {s : Shared} {t : Text} (noEscape : NoEscape t) :
    (prints s (t ++ text "\n")).Polite := polite_prints noEscape.lines

theorem noEscape_reverse {t : Text} (noEscape : NoEscape t) : NoEscape t.reverse :=
  fun c member => noEscape c (List.mem_reverse.mp member)

theorem polite_handle {table : Text} (noEscape : NoEscape table) (self : Stream) (h : Handler)
    {args : Args} (printable : args.Printable) (s : Shared) :
    (handle table self h args s).Polite := by
  have both {first second : Text} (one : NoEscape first) (two : NoEscape second) :
      NoEscape (first ++ second) := noEscape_append.mpr ⟨one, two⟩
  unfold handle
  split
  · exact polite_prints (by decide)
  · exact polite_line (both (by decide) (noEscape_int _))
  · exact polite_line (both (by decide) (noEscape_int _))
  · exact polite_prints (by decide)
  · exact polite_prints (by decide)
  · refine polite_prints ?_
    split <;> decide
  · exact polite_line (both (by decide) (noEscape_int _))
  · exact polite_line (both (by decide) (noEscape_int _))
  · exact polite_line (printable _ (by simp)).noEscape
  · exact polite_line (both (both (printable _ (by simp)).noEscape (by decide))
      (printable _ (by simp)).noEscape)
  · exact ⟨.inl rfl, fun what same => by cases same; decide⟩
  · exact polite_line (noEscape_reverse (printable _ (by simp)).noEscape)
  · exact polite_line (both (both (both (both (noEscape_int _) (by decide)) (noEscape_int _))
      (by decide)) (noEscape_int _))
  · exact polite_line (both (both (both (both (both (both (noEscape_int _) (by decide))
      (noEscape_int _)) (by decide)) (noEscape_int _)) (by decide)) (noEscape_int _))
  · refine polite_line (both (by decide) (noEscape_flatMap fun word member => ?_))
    exact both (printable word (by simpa using member)).noEscape (by decide)
  · exact polite_line (both (by decide) (noEscape_int _))
  · exact polite_prints (by decide)
  · exact polite_prints (by decide)
  · exact polite_prints (by decide)
  · exact polite_line noEscape
  · exact polite_prints (by decide)
  · exact polite_prints (by decide)
  · exact polite_prints (by decide)
  · exact polite_prints (by decide)

theorem polite_sessionExit (self : Stream) (s : Shared) : (sessionExit self s).Polite := by
  have bye : Lines (text "Terminating this session...\n") := by decide
  unfold sessionExit
  split
  · exact polite_prints (by decide)
  · exact polite_prints (by decide)
  · simp only
    split
    · rename_i what thrown
      refine ⟨bye, fun other same => ?_⟩
      cases same
      unfold Socket.shutdown at thrown
      split at thrown
      · cases thrown
      · cases thrown
        decide
      · cases thrown
        decide
    · exact polite_prints bye

/-- **lynx is polite**, as far as its table is. -/
theorem program_polite {table : Text} (noEscape : NoEscape table) : (program table).Polite where
  names := printableNames_menus
  prompt := printable_prompt
  steady _ _ m := by cases m <;> rfl
  help := lines_mainHelp
  handler self h _ s printable := polite_handle noEscape self h printable s
  sessionExit := polite_sessionExit
  cliExit := by
    have ends : Lines (text "Goodbye and thanks for all the fish.\n") := by decide
    exact ends
  stdException cmd what printable noEscape := by
    have start : NoEscape (text "Exception caught in cli handler: " ++ what ++
        text " handling command: " ++ cmd ++ text ".") :=
      noEscape_append.mpr ⟨noEscape_append.mpr ⟨noEscape_append.mpr ⟨noEscape_append.mpr
        ⟨by decide, noEscape⟩, by decide⟩, printable.noEscape⟩, by decide⟩
    have ends : text ".\n" = text "." ++ [10] := rfl
    have lines := start.lines
    simp only [program, ends]
    simpa using lines

end Lynx.Repl
