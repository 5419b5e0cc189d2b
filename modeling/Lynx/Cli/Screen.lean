/-
# Cli.Screen — what the user of a session sees

`Screen` is the terminal at the other end: rows of cells, a cursor, and the escape
sequences the library sends.  A row is as wide as it has to be, and rows scroll off
at no height.  `show` runs it over the bytes of a session.

`Shows` says that the row of the cursor holds a base (the prompt and what stands
before it), the line that is being edited, and nothing else but blanks, and that
the cursor is at the place of the editor.  Printing over the line, going back and
adding blanks are the three rules of `Shows`; from them, every key that edits the
line keeps it (`Shows.keypressed`, `Shows.setLine`).
-/
import Lynx.Cli.Terminal

namespace Lynx.Cli

open Lynx.Cli.Telnet (Key encode)

set_option autoImplicit false

/-- Where an escape sequence stands. -/
inductive Escape where
  | none
  | escape
  | csi
  deriving DecidableEq, Repr

theorem Printable.encode_eq {t : Text} (printable : Printable t) : encode t = t := by
  apply Telnet.encode_eq_self
  rintro c member rfl
  exact absurd (printable 10 member) (by decide)

structure Screen where
  /-- The rows above the cursor, the nearest first. -/
  above : List Text := []
  row : Text := []
  below : List Text := []
  col : Nat := 0
  escape : Escape := .none
  deriving DecidableEq, Repr

namespace Screen

/-- Write over the cell at the cursor. -/
def write (s : Screen) (c : Byte) : Screen :=
  let row := s.row ++ blanks (s.col - s.row.length)
  { s with row := row.take s.col ++ c :: row.drop (s.col + 1), col := s.col + 1 }

/-- The next row, at the same column. -/
def lineFeed (s : Screen) : Screen :=
  { s with above := s.row :: s.above, row := s.below.headD [], below := s.below.tail }

/-- `ESC [ H`. -/
def home (s : Screen) : Screen :=
  let rows := s.above.reverse ++ s.row :: s.below
  { s with above := [], row := rows.headD [], below := rows.tail, col := 0 }

/-- `ESC [ J`: nothing from the cursor on. -/
def eraseBelow (s : Screen) : Screen := { s with row := s.row.take s.col, below := [] }

/-- One byte.  Attributes of characters are not modelled. -/
def put (s : Screen) (c : Byte) : Screen :=
  match s.escape with
  | .none =>
      match c with
      | 8 => { s with col := s.col - 1 }
      | 9 => { s with col := (s.col / 8 + 1) * 8 }
      | 10 => s.lineFeed
      | 13 => { s with col := 0 }
      | 27 => { s with escape := .escape }
      | c => if isprint c then s.write c else s
  | .escape => { s with escape := if c = 91 then .csi else .none }
  | .csi =>
      match c with
      | 72 => { s.home with escape := .none }
      | 74 => { s.eraseBelow with escape := .none }
      | c => { s with escape := if 48 ≤ c ∧ c ≤ 59 then .csi else .none }

def show' (s : Screen) (t : Text) : Screen := t.foldl put s

theorem show'_append (s : Screen) (first second : Text) :
    s.show' (first ++ second) = (s.show' first).show' second := List.foldl_append

theorem put_of_isprint {s : Screen} (ready : s.escape = .none) {c : Byte}
    (printable : isprint c = true) : s.put c = s.write c := by
  simp only [put, ready]
  split <;> first | (exfalso; revert printable; decide) | simp [printable]

/-- Printing over the cells after the cursor. -/
theorem show'_print {s : Screen} {before after t : Text} (ready : s.escape = .none)
    (row : s.row = before ++ after) (col : s.col = before.length) (printable : Printable t) :
    s.show' t =
      { s with row := before ++ t ++ after.drop t.length, col := (before ++ t).length } := by
  induction t generalizing s before after with
  | nil =>
      obtain ⟨above, r, below, n, e⟩ := s
      subst row col
      simp [show']
  | cons c rest ih =>
      have here : isprint c = true := printable c (by simp)
      have there : Printable rest := fun d member => printable d (by simp [member])
      have wrote : s.put c =
          { s with row := before ++ [c] ++ after.tail, col := (before ++ [c]).length } := by
        rw [put_of_isprint ready here, write, row, col]
        simp [blanks, List.drop_append, List.drop_one]
      have next : (s.put c).show' rest = { s.put c with
          row := before ++ [c] ++ rest ++ after.tail.drop rest.length,
          col := (before ++ [c] ++ rest).length } :=
        ih (by rw [wrote, ready]) (by rw [wrote]) (by rw [wrote]) there
      have drops : after.tail.drop rest.length = after.drop (rest.length + 1) := by
        rw [← List.drop_one, List.drop_drop, Nat.add_comm]
      rw [show', List.foldl_cons, ← show', next, wrote, drops]
      simp

theorem show'_backs {s : Screen} (ready : s.escape = .none) (n : Nat) :
    s.show' (backs n) = { s with col := s.col - n } := by
  induction n generalizing s with
  | zero => rfl
  | succ n ih =>
      have back : s.put 8 = { s with col := s.col - 1 } := by simp only [put, ready]
      have next := ih (s := s.put 8) (by rw [back, ready])
      rw [backs, List.replicate_succ, show', List.foldl_cons, ← show', ← backs, next, back]
      simp [Nat.sub_sub, Nat.add_comm]

/-- A colour or style changes no cell. -/
theorem show'_style {s : Screen} (ready : s.escape = .none) {code : Text}
    (parameters : Digits code) : s.show' (27 :: 91 :: code ++ [109]) = s := by
  have inside (t : Screen) (csi : t.escape = .csi) : t.show' code = t := by
    induction code with
    | nil => rfl
    | cons c rest ih =>
        have here : 48 ≤ c ∧ c ≤ 57 := by simpa [isdigit] using parameters c (by simp)
        have same : t.put c = t := by
          obtain ⟨above, row, below, col, e⟩ := t
          subst csi
          have low := UInt8.le_iff_toNat_le.mp here.1
          have high := UInt8.le_iff_toNat_le.mp here.2
          simp only [put]
          split
          · exact absurd high (by decide)
          · exact absurd high (by decide)
          · have number : 48 ≤ c ∧ c ≤ 59 :=
              ⟨here.1, UInt8.le_iff_toNat_le.mpr (Nat.le_trans high (by decide))⟩
            simp [number]
        rw [show', List.foldl_cons, same]
        exact ih fun d member => parameters d (by simp [member])
  obtain ⟨above, row, below, col, e⟩ := s
  subst ready
  have opened : (⟨above, row, below, col, .none⟩ : Screen).show' [27, 91] =
      ⟨above, row, below, col, .csi⟩ := rfl
  have split : (27 :: 91 :: code ++ [109] : Text) = [27, 91] ++ (code ++ [109]) := rfl
  rw [split, show'_append, opened, show'_append, inside _ rfl]
  rfl

end Screen

/-! ## What the row of the cursor holds -/

/-- The screen takes cells, and nothing stands below the cursor. -/
structure Calm (s : Screen) : Prop where
  ready : s.escape = .none
  bottom : s.below = []

/-- The cursor is at `position` of `line`, which stands after `base`. -/
structure Shows (s : Screen) (base line : Text) (position : Nat) : Prop extends Calm s where
  col : s.col = base.length + position
  row : ∃ n, s.row = base ++ line ++ blanks n

namespace Shows

variable {s : Screen} {base before after line t : Text} {position n : Nat}

/-- **Printing** goes over what stands after the cursor. -/
theorem print (shows : Shows s base (before ++ after) before.length) (printable : Printable t) :
    Shows (s.show' t) base (before ++ t ++ after.drop t.length) (before ++ t).length := by
  obtain ⟨n, row⟩ := shows.row
  have split : s.row = (base ++ before) ++ (after ++ blanks n) := by simp [row]
  have printed := Screen.show'_print shows.ready split (by rw [shows.col, List.length_append])
    printable
  rw [printed]
  refine ⟨⟨shows.ready, shows.bottom⟩, ?_, n - (t.length - after.length), ?_⟩
  · simp only [List.length_append]
    omega
  · simp [List.drop_append, blanks, List.drop_replicate]

/-- **Going back** moves the cursor only. -/
theorem back (shows : Shows s base line position) (inside : n ≤ position) :
    Shows (s.show' (backs n)) base line (position - n) := by
  rw [Screen.show'_backs shows.ready]
  refine ⟨⟨shows.ready, shows.bottom⟩, ?_, shows.row⟩
  simp only [shows.col]
  omega

/-- **Blanks** at the end of the line are no part of it. -/
theorem trim (shows : Shows s base (line ++ blanks n) position) : Shows s base line position := by
  obtain ⟨m, row⟩ := shows.row
  exact ⟨shows.toCalm, shows.col, n + m, by
    rw [row, blanks, blanks, blanks, ← List.replicate_append_replicate]
    simp only [List.append_assoc]⟩

/-- What was printed can be what the next line stands after. -/
theorem settle (shows : Shows s base line line.length) : Shows s (base ++ line) [] 0 := by
  obtain ⟨m, row⟩ := shows.row
  exact ⟨shows.toCalm, by rw [shows.col]; simp, m, by simpa using row⟩

end Shows

/-- The user's screen after all that the session has written. -/
def OStream.screen (out : OStream) : Screen := ({} : Screen).show' (encode out.written)

namespace OStream

variable {out : OStream}

@[simp] theorem screen_put (t : Text) : (out.put t).screen = out.screen.show' (encode t) := by
  simp [screen, put, Telnet.encode_append, Screen.show'_append]

/-- A text without a newline goes to the screen as it is. -/
theorem screen_put_of {t : Text} (plain : encode t = t) :
    (out.put t).screen = out.screen.show' t := by
  rw [screen_put, plain]

theorem encode_backs (n : Nat) : encode (backs n) = backs n := by
  apply Telnet.encode_eq_self
  intro c member
  rw [List.eq_of_mem_replicate member]
  decide

theorem screen_style (out : OStream) (calm : Calm out.screen) {code : Text}
    (digits : Digits code) : (out.style code).screen = out.screen := by
  have plain : encode (27 :: 91 :: code ++ [109]) = 27 :: 91 :: code ++ [109] := by
    apply Telnet.encode_eq_self
    rintro c member rfl
    simp only [List.cons_append, List.mem_cons, List.mem_append, List.not_mem_nil, or_false] at member
    rcases member with h | h | member | h
    · exact absurd h (by decide)
    · exact absurd h (by decide)
    · exact absurd (digits 10 member) (by decide)
    · exact absurd h (by decide)
  unfold style
  split
  · rw [screen_put_of plain]
    exact Screen.show'_style calm.ready digits
  · rfl

theorem screen_beforeInput (calm : Calm out.screen) (color : Bool) :
    (out.beforeInput color).screen = out.screen := by
  cases color with
  | false => rfl
  | true => exact screen_style out.force calm (by decide)

theorem screen_reset (calm : Calm out.screen) : out.reset.screen = out.screen :=
  screen_style out calm (by decide)

theorem screen_beforePrompt (calm : Calm out.screen) (color : Bool) :
    (out.beforePrompt color).screen = out.screen := by
  cases color with
  | false => rfl
  | true =>
      have green : (out.force.style (text "32")).screen = out.screen :=
        screen_style out.force calm (by decide)
      have stillCalm : Calm (out.force.style (text "32")).screen := by
        rw [green]
        exact calm
      have bold : ((out.force.style (text "32")).style (text "1")).screen =
          (out.force.style (text "32")).screen := screen_style _ stillCalm (by decide)
      exact bold.trans green

end OStream

/-- The screen of a session shows `line` after `base`, with the cursor at `position`. -/
def Shown (out : OStream) (base line : Text) (position : Nat) : Prop :=
  Shows out.screen base line position

namespace Shown

variable {out : OStream} {base before after line t : Text} {position n : Nat}

theorem of_eq {line' : Text} {position' : Nat} (shown : Shown out base line position)
    (sameLine : line = line') (samePosition : position = position') :
    Shown out base line' position' := by
  subst sameLine samePosition
  exact shown

theorem print (shown : Shown out base (before ++ after) before.length) (printable : Printable t) :
    Shown (out.put t) base (before ++ t ++ after.drop t.length) (before ++ t).length := by
  have printed := Shows.print shown printable
  rwa [Shown, OStream.screen_put_of printable.encode_eq]

/-- Printing where no line is yet. -/
theorem first (shown : Shown out base [] 0) (printable : Printable t) :
    Shown (out.put t) base t t.length := by
  have start : Shown out base ([] ++ []) ([] : Text).length := shown
  exact (start.print printable).of_eq (by simp) rfl

theorem back (shown : Shown out base line position) (inside : n ≤ position) :
    Shown (out.put (backs n)) base line (position - n) := by
  have moved := Shows.back shown inside
  rwa [Shown, OStream.screen_put_of (OStream.encode_backs n)]

theorem trim (shown : Shown out base (line ++ blanks n) position) : Shown out base line position :=
  Shows.trim shown

theorem settle (shown : Shown out base line line.length) : Shown out (base ++ line) [] 0 :=
  Shows.settle shown

theorem beforeInput (shown : Shown out base line position) (color : Bool) :
    Shown (out.beforeInput color) base line position := by
  rwa [Shown, OStream.screen_beforeInput shown.toCalm]

theorem beforePrompt (shown : Shown out base line position) (color : Bool) :
    Shown (out.beforePrompt color) base line position := by
  rwa [Shown, OStream.screen_beforePrompt shown.toCalm]

theorem reset (shown : Shown out base line position) : Shown out.reset base line position := by
  rwa [Shown, OStream.screen_reset shown.toCalm]

end Shown

theorem printable_blanks (n : Nat) : Printable (blanks n) := by
  intro c member
  rw [List.eq_of_mem_replicate member]
  decide

/-! ## The keys that edit the line -/

/-- A key that types no character, a cell or a tab. -/
def Typable : Key → Prop
  | .ascii c => c = 9 ∨ isprint c = true
  | _ => True

instance (k : Key) : Decidable (Typable k) :=
  match k with
  | .ascii c => inferInstanceAs (Decidable (c = 9 ∨ isprint c = true))
  | .up | .down | .left | .right | .backspace | .canc | .home | .end' | .ret | .eof | .ignored
  | .clear => .isTrue trivial

theorem Terminal.printable_keypressed {t : Terminal} {k : Key} (line : Printable t.currentLine)
    (typed : Typable k) (color : Bool) (out : OStream) :
    Printable (t.keypressed color k out).2.1.currentLine := by
  obtain ⟨before, after, rfl⟩ := t.exists_eq_split
  obtain ⟨printableBefore, printableAfter⟩ := printable_append.mp line
  cases k with
  | ascii c =>
      by_cases tab : c = 9
      · simpa only [Terminal.keypressed, tab, if_true] using line
      · rw [Terminal.keypressed_ascii _ _ _ _ tab]
        have one : Printable [c] := by simpa [Printable] using typed.resolve_left tab
        exact printable_append.mpr ⟨printable_append.mpr ⟨printableBefore, one⟩, printableAfter⟩
  | backspace =>
      rcases before.eq_nil_or_concat' with rfl | ⟨rest, c, rfl⟩
      · exact line
      · rw [Terminal.keypressed_backspace]
        exact printable_append.mpr ⟨(printable_append.mp printableBefore).1, printableAfter⟩
  | canc =>
      cases after with
      | nil => simpa only [Terminal.keypressed_canc_nil] using line
      | cons c after =>
          rw [Terminal.keypressed_canc]
          exact printable_append.mpr
            ⟨printableBefore, fun d member => printableAfter d (by simp [member])⟩
  | left =>
      rcases before.eq_nil_or_concat' with rfl | ⟨rest, c, rfl⟩
      · exact line
      · simpa [Terminal.keypressed_left] using line
  | right =>
      cases after with
      | nil => simpa only [Terminal.keypressed_right_nil] using line
      | cons c after => simpa [Terminal.keypressed_right] using line
  | home => exact line
  | end' => exact line
  | ret => exact fun c member => absurd member (by simp [Terminal.keypressed])
  | up => exact line
  | down => exact line
  | eof => exact line
  | clear => exact line
  | ignored => exact line

/-- **A key keeps what the screen shows in step with the line**, as long as it does
not enter the line. -/
theorem Shown.keypressed {t : Terminal} {out : OStream} {base : Text} {color : Bool} {k : Key}
    (shown : Shown out base t.currentLine t.position) (line : Printable t.currentLine)
    (typed : Typable k) (other : k ≠ .ret) :
    Shown (t.keypressed color k out).2.2 base (t.keypressed color k out).2.1.currentLine
      (t.keypressed color k out).2.1.position := by
  obtain ⟨before, after, rfl⟩ := t.exists_eq_split
  obtain ⟨-, printableAfter⟩ := printable_append.mp line
  simp only [Terminal.currentLine_split, Terminal.position_split] at shown
  cases k with
  | ascii c =>
      by_cases tab : c = 9
      · simp only [Terminal.keypressed, tab, if_true]
        exact shown
      · have one : Printable [c] := by simpa [Printable] using typed.resolve_left tab
        rw [Terminal.keypressed_ascii _ _ _ _ tab]
        have first := (shown.beforeInput color).print one
        have second := (first.print printableAfter).reset
        have third := second.back (n := after.length) (by simp only [List.length_append]; omega)
        have gone : (after.drop [c].length).drop after.length = [] :=
          List.drop_eq_nil_of_le (by simp)
        apply third.of_eq
        · rw [gone]
          simp
        · simp only [List.length_append, Terminal.position_split]
          omega
  | backspace =>
      rcases before.eq_nil_or_concat' with rfl | ⟨rest, c, rfl⟩
      · exact shown
      · rw [Terminal.keypressed_backspace]
        have first : Shown (out.put (backs 1)) base (rest ++ (c :: after)) rest.length :=
          (shown.back (n := 1) (by simp)).of_eq (by simp) (by simp)
        have second := first.print printableAfter
        have third := second.print (printable_blanks 1)
        have fourth := third.back (n := after.length + 1) (by simp [blanks])
        have gone : ((c :: after).drop after.length).drop (blanks 1).length = [] := by
          apply List.drop_eq_nil_of_le
          simp [blanks]
        rw [gone, List.append_nil] at fourth
        exact fourth.trim.of_eq rfl (by simp [blanks])
  | canc =>
      cases after with
      | nil =>
          rw [Terminal.keypressed_canc_nil]
          exact shown
      | cons c after =>
          have rest : Printable after := fun d member => printableAfter d (by simp [member])
          rw [Terminal.keypressed_canc]
          have first := shown.print rest
          have second := first.print (printable_blanks 1)
          have third := second.back (n := after.length + 1) (by simp [blanks])
          have gone : ((c :: after).drop after.length).drop (blanks 1).length = [] := by
            apply List.drop_eq_nil_of_le
            simp [blanks]
          rw [gone, List.append_nil] at third
          exact third.trim.of_eq rfl (by simp [blanks])
  | left =>
      rcases before.eq_nil_or_concat' with rfl | ⟨rest, c, rfl⟩
      · exact shown
      · rw [Terminal.keypressed_left]
        have first := shown.back (n := 1) (by simp)
        exact first.of_eq (by simp) (by simp)
  | right =>
      cases after with
      | nil =>
          rw [Terminal.keypressed_right_nil]
          exact shown
      | cons c after =>
          rw [Terminal.keypressed_right]
          have one : Printable [c] := fun d member => printableAfter d (by simp_all)
          have first := ((shown.beforeInput color).print one).reset
          exact first.of_eq (by simp) rfl
  | home =>
      rw [Terminal.keypressed_home]
      have first := shown.back (Nat.le_refl before.length)
      exact first.of_eq rfl (Nat.sub_self _)
  | end' =>
      rw [Terminal.keypressed_end']
      have first := ((shown.beforeInput color).print printableAfter).reset
      exact first.of_eq (by simp) rfl
  | ret => exact absurd rfl other
  | up => exact shown
  | down => exact shown
  | eof => exact shown
  | clear => exact shown
  | ignored => exact shown

/-- **A line put in the place of another** is shown alone. -/
theorem Shown.setLine {t : Terminal} {out : OStream} {base newLine : Text} {color : Bool}
    (shown : Shown out base t.currentLine t.position) (printable : Printable newLine) :
    Shown (t.setLine color newLine out).2 base (t.setLine color newLine out).1.currentLine
      (t.setLine color newLine out).1.position := by
  have start : Shown ((out.beforeInput color).put (backs t.position)) base
      ([] ++ t.currentLine) ([] : Text).length :=
    ((shown.beforeInput color).back (Nat.le_refl t.position)).of_eq rfl (Nat.sub_self _)
  have first : Shown (((out.beforeInput color).put (backs t.position)).put newLine).reset base
      (newLine ++ t.currentLine.drop newLine.length) newLine.length :=
    (start.print printable).reset.of_eq (by simp) (by simp)
  simp only [Terminal.setLine]
  split
  · have second := first.print (printable_blanks (t.currentLine.length - newLine.length))
    have third := second.back (n := t.currentLine.length - newLine.length)
      (by simp [blanks])
    have gone : (t.currentLine.drop newLine.length).drop
        (blanks (t.currentLine.length - newLine.length)).length = [] := by
      apply List.drop_eq_nil_of_le
      simp [blanks]
    rw [gone, List.append_nil] at third
    exact third.trim.of_eq rfl (by simp [blanks])
  · rename_i shorter
    have gone : t.currentLine.drop newLine.length = [] := List.drop_eq_nil_of_le (by omega)
    exact first.of_eq (by rw [gone, List.append_nil]) rfl

/-! ## Texts that are not part of a line -/

/-- No byte begins an escape sequence. -/
def NoEscape (t : Text) : Prop := ∀ c ∈ t, c ≠ 27

instance (t : Text) : Decidable (NoEscape t) := List.decidableBAll _ t

theorem Printable.noEscape {t : Text} (printable : Printable t) : NoEscape t := by
  rintro c member rfl
  exact absurd (printable 27 member) (by decide)

theorem noEscape_append {first second : Text} :
    NoEscape (first ++ second) ↔ NoEscape first ∧ NoEscape second :=
  List.forall_mem_append

theorem NoEscape.encode {t : Text} (noEscape : NoEscape t) : NoEscape (encode t) := by
  intro c member
  obtain ⟨d, inside, wrote⟩ := List.mem_flatMap.mp member
  split at wrote
  · simp only [List.mem_cons, List.not_mem_nil, or_false] at wrote
    rcases wrote with rfl | rfl <;> decide
  · rw [List.mem_singleton.mp wrote]
    exact noEscape d inside

theorem Calm.put {s : Screen} (calm : Calm s) {c : Byte} (plain : c ≠ 27) : Calm (s.put c) := by
  obtain ⟨above, row, below, col, state⟩ := s
  obtain ⟨ready, bottom⟩ := calm
  simp only at ready bottom
  subst ready bottom
  simp only [Screen.put]
  split
  · exact ⟨rfl, rfl⟩
  · exact ⟨rfl, rfl⟩
  · exact ⟨rfl, rfl⟩
  · exact ⟨rfl, rfl⟩
  · exact absurd rfl plain
  · split
    · exact ⟨rfl, rfl⟩
    · exact ⟨rfl, rfl⟩

theorem Calm.show' {s : Screen} (calm : Calm s) {t : Text} (noEscape : NoEscape t) :
    Calm (s.show' t) := by
  induction t generalizing s with
  | nil => exact calm
  | cons c rest ih =>
      exact ih (calm.put (noEscape c (by simp))) fun d member => noEscape d (by simp [member])

/-- The cursor is at the start of a row that is empty. -/
structure AtStart (s : Screen) : Prop extends Calm s where
  row : s.row = []
  col : s.col = 0

theorem AtStart.shows {s : Screen} (atStart : AtStart s) : Shows s [] [] 0 :=
  ⟨atStart.toCalm, atStart.col, 0, by simp [atStart.row, blanks]⟩

/-- What a newline does on the wire. -/
theorem Calm.newline {s : Screen} (calm : Calm s) : AtStart (s.show' [13, 10]) := by
  obtain ⟨above, row, below, col, state⟩ := s
  obtain ⟨ready, bottom⟩ := calm
  simp only at ready bottom
  subst ready bottom
  exact ⟨⟨rfl, rfl⟩, rfl, rfl⟩

/-- The two escape sequences of `TelnetScreen::Clear` leave an empty screen. -/
theorem Calm.clear {s : Screen} (calm : Calm s) :
    AtStart (s.show' (encode (text "\x1b[H\x1b[J"))) := by
  obtain ⟨above, row, below, col, state⟩ := s
  obtain ⟨ready, bottom⟩ := calm
  simp only at ready bottom
  subst ready bottom
  have bytes : encode (text "\x1b[H\x1b[J") = [27, 91, 72, 27, 91, 74] := by decide
  rw [bytes]
  exact ⟨⟨rfl, rfl⟩, by simp [Screen.show', Screen.put, Screen.home, Screen.eraseBelow], rfl⟩

/-- Whole lines, or nothing. -/
def Lines (t : Text) : Prop := t = [] ∨ ∃ u, NoEscape u ∧ t = u ++ [10]

theorem lines_iff {t : Text} : (t = [] ∨ t.getLast? = some 10) ∧ NoEscape t ↔ Lines t := by
  constructor
  · rintro ⟨nothing | last, noEscape⟩
    · exact .inl nothing
    · obtain ⟨u, rfl⟩ := List.getLast?_eq_some_iff.mp last
      exact .inr ⟨u, (noEscape_append.mp noEscape).1, rfl⟩
  · rintro (rfl | ⟨u, noEscape, rfl⟩)
    · exact ⟨.inl rfl, by simp [NoEscape]⟩
    · exact ⟨.inr (by simp), noEscape_append.mpr ⟨noEscape, by decide⟩⟩

instance (t : Text) : Decidable (Lines t) := decidable_of_iff _ lines_iff

theorem NoEscape.lines {t : Text} (noEscape : NoEscape t) : Lines (t ++ [10]) :=
  .inr ⟨t, noEscape, rfl⟩

theorem Lines.noEscape {t : Text} (lines : Lines t) : NoEscape t := by
  rcases lines with rfl | ⟨u, noEscape, rfl⟩
  · simp [NoEscape]
  · exact noEscape_append.mpr ⟨noEscape, by decide⟩

theorem Lines.append {first second : Text} (one : Lines first) (two : Lines second) :
    Lines (first ++ second) := by
  rcases two with rfl | ⟨u, noEscape, rfl⟩
  · simpa using one
  · exact .inr ⟨first ++ u, noEscape_append.mpr ⟨one.noEscape, noEscape⟩, by simp⟩

theorem lines_flatMap {α : Type _} {items : List α} {f : α → Text}
    (each : ∀ a ∈ items, Lines (f a)) : Lines (items.flatMap f) := by
  induction items with
  | nil => exact .inl rfl
  | cons a rest ih =>
      exact (each a (by simp)).append (ih fun b member => each b (by simp [member]))

/-- **Whole lines** end at the start of a row. -/
theorem AtStart.lines {s : Screen} (atStart : AtStart s) {t : Text} (lines : Lines t) :
    AtStart (s.show' (encode t)) := by
  rcases lines with rfl | ⟨u, noEscape, rfl⟩
  · exact atStart
  · have newline : encode [10] = [13, 10] := rfl
    rw [Telnet.encode_append, Screen.show'_append, newline]
    exact (atStart.toCalm.show' noEscape.encode).newline

/-! ## Writing to a session -/

namespace OStream

variable {out : OStream} {t : Text}

theorem calm_put (calm : Calm out.screen) (noEscape : NoEscape t) : Calm (out.put t).screen := by
  rw [screen_put]
  exact calm.show' noEscape.encode

theorem calm_beforeInput (calm : Calm out.screen) (color : Bool) :
    Calm (out.beforeInput color).screen := by
  rwa [screen_beforeInput calm]

theorem calm_reset (calm : Calm out.screen) : Calm out.reset.screen := by
  rwa [screen_reset calm]

theorem atStart_put (atStart : AtStart out.screen) (lines : Lines t) :
    AtStart (out.put t).screen := by
  rw [screen_put]
  exact atStart.lines lines

/-- The editor ends a line with `"\r\n"`. -/
theorem atStart_ret (calm : Calm out.screen) : AtStart (out.put [13, 10]).screen := by
  have bytes : encode [13, 10] = [13] ++ [13, 10] := rfl
  rw [screen_put, bytes, Screen.show'_append]
  exact (calm.show' (by decide)).newline

theorem atStart_newline (calm : Calm out.screen) (noEscape : NoEscape t) :
    AtStart (out.put (t ++ [10])).screen := by
  have newline : encode [10] = [13, 10] := rfl
  rw [screen_put, Telnet.encode_append, Screen.show'_append, newline]
  exact (calm.show' noEscape.encode).newline

end OStream

theorem noEscape_backs (n : Nat) : NoEscape (backs n) := by
  intro c member
  rw [List.eq_of_mem_replicate member]
  decide

/-- Whatever the screen shows, a key leaves it ready. -/
theorem Terminal.calm_keypressed {t : Terminal} {out : OStream} {k : Key}
    (calm : Calm out.screen) (line : Printable t.currentLine) (typed : Typable k) (color : Bool) :
    Calm (t.keypressed color k out).2.2.screen := by
  have rest (n : Nat) : NoEscape (t.currentLine.drop n) :=
    Printable.noEscape fun c member => line c (List.mem_of_mem_drop member)
  cases k with
  | ascii c =>
      by_cases tab : c = 9
      · simpa only [keypressed, tab, if_true] using calm
      · have one : NoEscape [c] := by
          have printable := typed.resolve_left tab
          simp only [NoEscape, List.mem_singleton, forall_eq]
          rintro rfl
          exact absurd printable (by decide)
        simp only [keypressed, tab, if_false]
        have first := OStream.calm_put (OStream.calm_beforeInput calm color) one
        exact OStream.calm_put (OStream.calm_reset (OStream.calm_put first (rest _)))
          (noEscape_backs _)
  | backspace =>
      simp only [keypressed]
      split
      · exact calm
      · have erased : NoEscape ((t.currentLine.eraseIdx (t.position - 1)).drop (t.position - 1)) :=
          fun c member => line.noEscape c (List.mem_of_mem_eraseIdx (List.mem_of_mem_drop member))
        have first := OStream.calm_put (OStream.calm_put calm (t := [8]) (by decide)) erased
        exact OStream.calm_put (OStream.calm_put first (t := [32]) (by decide)) (noEscape_backs _)
  | canc =>
      simp only [keypressed]
      split
      · exact calm
      · have first := OStream.calm_put calm (rest (t.position + 1))
        exact OStream.calm_put (OStream.calm_put first (t := [32]) (by decide)) (noEscape_backs _)
  | left =>
      simp only [keypressed]
      split
      · exact OStream.calm_put calm (by decide)
      · exact calm
  | right =>
      simp only [keypressed]
      split
      · have one : NoEscape [t.currentLine[t.position]] := by
          intro c member
          rw [List.mem_singleton.mp member]
          exact line.noEscape _ (List.getElem_mem ..)
        exact OStream.calm_reset (OStream.calm_put (OStream.calm_beforeInput calm color) one)
      · exact calm
  | home => exact OStream.calm_put calm (noEscape_backs _)
  | end' => exact OStream.calm_reset (OStream.calm_put (OStream.calm_beforeInput calm color) (rest _))
  | ret => exact (OStream.atStart_ret calm).toCalm
  | up => exact calm
  | down => exact calm
  | eof => exact calm
  | clear => exact calm
  | ignored => exact calm

theorem Terminal.calm_setLine {t : Terminal} {out : OStream} {newLine : Text}
    (calm : Calm out.screen) (printable : Printable newLine) (color : Bool) :
    Calm (t.setLine color newLine out).2.screen := by
  have first := OStream.calm_put (OStream.calm_beforeInput calm color) (noEscape_backs t.position)
  have second := OStream.calm_reset (OStream.calm_put first printable.noEscape)
  simp only [setLine]
  split
  · exact OStream.calm_put (OStream.calm_put second (printable_blanks _).noEscape)
      (noEscape_backs _)
  · exact second

end Lynx.Cli
