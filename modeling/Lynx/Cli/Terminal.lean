/-
# Cli.Terminal — the line editor of a session

`Terminal` keeps the line that is being typed and the place of the cursor in it;
each key changes them and writes what the user's screen has to show.  That the
place is inside the line is a field of the structure: the source relies on it for
every iterator it computes.

`zipper_keypressed` compares the editor with a zipper, which has no index to get
wrong, one key at a time.  `typing_refines` says so of whole sequences of keys: whatever
is written to the screen, the lines that they enter are those of the zipper.
-/
import Lynx.Cli.Telnet
import Lynx.Theory.Transducer
import Lynx.Theory.Zipper

namespace Lynx.Cli

open Lynx.Theory
open Lynx.Theory.Transducer (feed feed_refines)
open Lynx.Cli.Telnet (Key)

set_option autoImplicit false

/-! ## The output stream -/

/-- The `std::ostream` of a session. -/
structure OStream where
  written : Text := []
  /-- The `iword` that `rang::control::forceColor` sets. -/
  forceColor : Bool := false
  /-- `supportsColor() && isTerminal(rdbuf())`, which no telnet stream is. -/
  autoColor : Bool := false
  deriving DecidableEq, Repr

namespace OStream

def put (out : OStream) (t : Text) : OStream := { out with written := out.written ++ t }

/-- `operator<<` of a `rang` colour or style. -/
def style (out : OStream) (code : Text) : OStream :=
  if out.forceColor || out.autoColor then out.put (27 :: 91 :: code ++ [109]) else out

/-- `control::forceColor`. -/
def force (out : OStream) : OStream := { out with forceColor := true }

/-- `beforePrompt`: green and bold. -/
def beforePrompt (color : Bool) (out : OStream) : OStream :=
  if color then ((out.force.style (text "32")).style (text "1")) else out

/-- `beforeInput`: bright gray. -/
def beforeInput (color : Bool) (out : OStream) : OStream :=
  if color then out.force.style (text "97") else out

/-- `afterPrompt` and `afterInput`: `style::reset`. -/
def reset (out : OStream) : OStream := out.style (text "0")

end OStream

/-- `std::string(n, '\b')`. -/
def backs (n : Nat) : Text := List.replicate n 8

/-- `std::string(n, ' ')`. -/
def blanks (n : Nat) : Text := List.replicate n 32

/-! ## `Terminal` -/

structure Terminal where
  currentLine : Text := []
  /-- The next writing position in `currentLine`. -/
  position : Nat := 0
  inside : position ≤ currentLine.length := by decide

/-- `Symbol`, with the string that comes with `Symbol::command`. -/
inductive Symbol where
  | nothing
  | command (line : Text)
  | up
  | down
  | tab
  | eof
  | clear
  deriving DecidableEq, Repr

theorem le_length_eraseIdx {line : Text} {position : Nat} (inside : position < line.length) :
    position ≤ (line.eraseIdx position).length := by
  rw [List.length_eraseIdx_of_lt inside]
  omega

namespace Terminal

/-- A new terminal: the line is empty. -/
def start : Terminal := {}

def resetCursor (t : Terminal) : Terminal := { t with position := 0, inside := Nat.zero_le _ }

/-- `Terminal::SetLine`. -/
def setLine (t : Terminal) (color : Bool) (newLine : Text) (out : OStream) :
    Terminal × OStream :=
  let out := (((out.beforeInput color).put (backs t.position)).put newLine).reset
  let rest := t.currentLine.length - newLine.length
  let out :=
    if newLine.length < t.currentLine.length then (out.put (blanks rest)).put (backs rest)
    else out
  ({ currentLine := newLine, position := newLine.length, inside := Nat.le_refl _ }, out)

/-- `Terminal::Keypressed`. -/
def keypressed (t : Terminal) (color : Bool) (k : Key) (out : OStream) :
    Symbol × Terminal × OStream :=
  match k with
  | .eof => (.eof, t, out)
  | .backspace =>
      if before : t.position = 0 then (.nothing, t, out)
      else
        let position := t.position - 1
        let line := t.currentLine.eraseIdx position
        let out := ((out.put [8]).put (line.drop position)).put [32]
        let out := out.put (backs (line.length - position + 1))
        (.nothing, ⟨line, position, le_length_eraseIdx (by have := t.inside; omega)⟩, out)
  | .up => (.up, t, out)
  | .down => (.down, t, out)
  | .left =>
      if 0 < t.position then
        (.nothing, ⟨t.currentLine, t.position - 1, Nat.le_trans (Nat.sub_le ..) t.inside⟩,
          out.put [8])
      else (.nothing, t, out)
  | .right =>
      if after : t.position < t.currentLine.length then
        (.nothing, ⟨t.currentLine, t.position + 1, after⟩,
          ((out.beforeInput color).put [t.currentLine[t.position]]).reset)
      else (.nothing, t, out)
  | .ret => (.command t.currentLine, {}, out.put [13, 10])
  | .ascii c =>
      if c = 9 then (.tab, t, out)
      else
        let out := (out.beforeInput color).put [c]
        let out := (out.put (t.currentLine.drop t.position)).reset
        let out := out.put (backs (t.currentLine.length - t.position))
        (.nothing, ⟨t.currentLine.insertIdx t.position c, t.position + 1, by
          rw [List.length_insertIdx_of_le_length t.inside]
          exact Nat.succ_le_succ t.inside⟩, out)
  | .canc =>
      if after : t.position = t.currentLine.length then (.nothing, t, out)
      else
        let out := (out.put (t.currentLine.drop (t.position + 1))).put [32]
        let out := out.put (backs (t.currentLine.length - t.position))
        (.nothing, ⟨t.currentLine.eraseIdx t.position, t.position,
          le_length_eraseIdx (by have := t.inside; omega)⟩, out)
  | .end' =>
      (.nothing, ⟨t.currentLine, t.currentLine.length, Nat.le_refl _⟩,
        ((out.beforeInput color).put (t.currentLine.drop t.position)).reset)
  | .home =>
      (.nothing, ⟨t.currentLine, 0, Nat.zero_le _⟩, out.put (backs t.position))
  | .clear => (.clear, t, out)
  | .ignored => (.nothing, t, out)

/-- What a key leaves to the session. -/
def symbol (t : Terminal) : Key → Symbol
  | .eof => .eof
  | .up => .up
  | .down => .down
  | .ret => .command t.currentLine
  | .ascii c => if c = 9 then .tab else .nothing
  | .clear => .clear
  | .backspace | .canc | .left | .right | .home | .end' | .ignored => .nothing

theorem keypressed_symbol (t : Terminal) (color : Bool) (k : Key) (out : OStream) :
    (t.keypressed color k out).1 = t.symbol k := by
  cases k with
  | ascii c =>
      simp only [keypressed, symbol]
      split <;> rfl
  | backspace | canc | left | right =>
      simp only [keypressed, symbol]
      split <;> rfl
  | ret | up | down | eof | clear | home | end' | ignored => rfl

/-! ## The keys, one by one -/

/-- The terminal with the cursor between two texts. -/
def split (before after : Text) : Terminal where
  currentLine := before ++ after
  position := before.length
  inside := by rw [List.length_append]; exact Nat.le_add_right ..

/-- Every terminal is one. -/
theorem exists_eq_split (t : Terminal) : ∃ before after, t = split before after := by
  obtain ⟨line, position, inside⟩ := t
  obtain ⟨before, after, rfl, rfl⟩ := exists_split inside
  exact ⟨before, after, rfl⟩

section Split

variable (before after : Text) (c : Byte) (color : Bool) (out : OStream)

@[simp] theorem currentLine_split : (split before after).currentLine = before ++ after := rfl

@[simp] theorem position_split : (split before after).position = before.length := rfl

theorem keypressed_ascii {c : Byte} (noTab : c ≠ 9) :
    (split before after).keypressed color (.ascii c) out =
      (.nothing, split (before ++ [c]) after,
        (((out.beforeInput color).put [c]).put after).reset.put (backs after.length)) := by
  simp [keypressed, noTab, split, insertIdx_append]

theorem keypressed_backspace :
    (split (before ++ [c]) after).keypressed color .backspace out =
      (.nothing, split before after,
        (((out.put (backs 1)).put after).put (blanks 1)).put (backs (after.length + 1))) := by
  have erased := eraseIdx_append before after c
  simp [keypressed, split, erased, backs, blanks]

theorem keypressed_canc_nil :
    (split before []).keypressed color .canc out = (.nothing, split before [], out) := by
  simp [keypressed, split]

theorem keypressed_canc :
    (split before (c :: after)).keypressed color .canc out =
      (.nothing, split before after,
        ((out.put after).put (blanks 1)).put (backs (after.length + 1))) := by
  simp [keypressed, split, eraseIdx_append, backs, blanks]

theorem keypressed_left :
    (split (before ++ [c]) after).keypressed color .left out =
      (.nothing, split before (c :: after), out.put (backs 1)) := by
  simp [keypressed, split, backs]

theorem keypressed_right_nil :
    (split before []).keypressed color .right out = (.nothing, split before [], out) := by
  simp [keypressed, split]

theorem keypressed_right :
    (split before (c :: after)).keypressed color .right out =
      (.nothing, split (before ++ [c]) after, ((out.beforeInput color).put [c]).reset) := by
  simp [keypressed, split]

theorem keypressed_home :
    (split before after).keypressed color .home out =
      (.nothing, split [] (before ++ after), out.put (backs before.length)) := rfl

theorem keypressed_end' :
    (split before after).keypressed color .end' out =
      (.nothing, split (before ++ after) [], ((out.beforeInput color).put after).reset) := by
  simp [keypressed, split]

end Split

/-! ## The editor and the zipper -/

/-- The line with the place of the cursor. -/
def zipper (t : Terminal) : Zipper Byte where
  before := (t.currentLine.take t.position).reverse
  after := t.currentLine.drop t.position

/-- What a key means, on a zipper. -/
def edit (z : Zipper Byte) : Key → Zipper Byte
  | .ascii c => if c = 9 then z else z.insert c
  | .backspace => z.eraseBefore
  | .canc => z.eraseAfter
  | .left => z.left
  | .right => z.right
  | .home => z.home
  | .end' => z.end'
  | .ret => {}
  | .up | .down | .eof | .clear | .ignored => z

@[simp] theorem toList_zipper (t : Terminal) : t.zipper.toList = t.currentLine := by
  simp [zipper, Zipper.toList]

theorem zipper_split (before after : Text) :
    (split before after).zipper = ⟨before.reverse, after⟩ := by
  simp [zipper]

/-- **The editor refines the zipper**, whatever it writes. -/
theorem zipper_keypressed (t : Terminal) (color : Bool) (k : Key) (out : OStream) :
    (t.keypressed color k out).2.1.zipper = edit t.zipper k := by
  obtain ⟨before, after, rfl⟩ := t.exists_eq_split
  cases k with
  | ascii c =>
      by_cases tab : c = 9
      · simp [keypressed, tab, edit]
      · rw [keypressed_ascii _ _ _ _ tab, zipper_split, zipper_split]
        simp [edit, tab, Zipper.insert]
  | backspace =>
      rcases before.eq_nil_or_concat' with rfl | ⟨rest, c, rfl⟩
      · rfl
      · rw [keypressed_backspace, zipper_split, zipper_split]
        simp [edit, Zipper.eraseBefore]
  | canc =>
      cases after with
      | nil =>
          rw [keypressed_canc_nil, zipper_split]
          rfl
      | cons c after =>
          rw [keypressed_canc, zipper_split, zipper_split]
          rfl
  | left =>
      rcases before.eq_nil_or_concat' with rfl | ⟨rest, c, rfl⟩
      · rfl
      · rw [keypressed_left, zipper_split, zipper_split]
        simp [edit, Zipper.left]
  | right =>
      cases after with
      | nil =>
          rw [keypressed_right_nil, zipper_split]
          rfl
      | cons c after =>
          rw [keypressed_right, zipper_split, zipper_split]
          simp [edit, Zipper.right]
  | home =>
      rw [keypressed_home, zipper_split, zipper_split]
      simp [edit, Zipper.home, Zipper.toList]
  | end' =>
      rw [keypressed_end', zipper_split, zipper_split]
      simp [edit, Zipper.end', Zipper.toList]
  | ret => rfl
  | up => rfl
  | down => rfl
  | eof => rfl
  | clear => rfl
  | ignored => rfl

/-- The editor as a machine: it reads keys and writes what they leave to the session. -/
def typing (color : Bool) (s : Terminal × OStream) (k : Key) :
    (Terminal × OStream) × List Symbol :=
  let (symbol, t, out) := s.1.keypressed color k s.2
  ((t, out), [symbol])

/-- What a key on a zipper leaves to the session. -/
def editSymbol (z : Zipper Byte) : Key → Symbol
  | .eof => .eof
  | .up => .up
  | .down => .down
  | .ret => .command z.toList
  | .ascii c => if c = 9 then .tab else .nothing
  | .clear => .clear
  | .backspace | .canc | .left | .right | .home | .end' | .ignored => .nothing

/-- The zipper as such a machine. -/
def editing (z : Zipper Byte) (k : Key) : Zipper Byte × List Symbol := (edit z k, [editSymbol z k])

theorem editSymbol_zipper (t : Terminal) (k : Key) : editSymbol t.zipper k = t.symbol k := by
  cases k with
  | ret => exact congrArg Symbol.command (toList_zipper t)
  | ascii | up | down | left | right | backspace | canc | home | end' | eof | ignored | clear =>
      rfl

/-- **Whole sequences of keys.**  The editor enters the lines that the zipper enters, and leaves
the line and the place that the zipper leaves, whatever has been written to the screen. -/
theorem typing_refines (t : Terminal) (color : Bool) (out : OStream) (keys : List Key) :
    feed editing t.zipper keys =
      ((feed (typing color) (t, out) keys).1.1.zipper, (feed (typing color) (t, out) keys).2) := by
  have each (s : Terminal × OStream) (k : Key) :
      editing s.1.zipper k = ((typing color s k).1.1.zipper, (typing color s k).2) := by
    have zipper := zipper_keypressed s.1 color k s.2
    have symbol := (editSymbol_zipper s.1 k).trans (keypressed_symbol s.1 color k s.2).symm
    rw [editing, ← zipper, symbol]
    rfl
  exact feed_refines (f := fun s : Terminal × OStream => s.1.zipper) each (t, out) keys

end Terminal

end Lynx.Cli
