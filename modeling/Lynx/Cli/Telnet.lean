/-
# Cli.Telnet — the bytes of a telnet client: commands, negotiation, keys

Two machines read a telnet connection one byte at a time, whatever way the bytes
were cut into packets.  `consume` takes the telnet commands out and answers what
the client asks for; the data bytes go on to `output`, which finds the keys among
them.  `receive` is the two in a row (`TelnetSession` and `CliTelnetSession`).

`Item.wire` is how a client sends a data byte or a telnet command, and `Spells`
which bytes stand for a key.  `feed_consume_wire` and `feed_output_iff` are the
rules of the two machines; the second is exact, for every stream of bytes.
`receive_script` puts them together: commands may come between any two bytes of
a key, and every key arrives, once and in order.
-/
import Lynx.Cli.Text
import Lynx.Theory.Transducer

namespace Lynx.Cli.Telnet

open Lynx.Theory.Transducer

set_option autoImplicit false

/-! ## The command bytes -/

@[match_pattern] abbrev se : Byte := 240
@[match_pattern] abbrev nop : Byte := 241
@[match_pattern] abbrev dataMark : Byte := 242
@[match_pattern] abbrev break' : Byte := 243
@[match_pattern] abbrev interruptProcess : Byte := 244
@[match_pattern] abbrev abortOutput : Byte := 245
@[match_pattern] abbrev areYouThere : Byte := 246
@[match_pattern] abbrev eraseCharacter : Byte := 247
@[match_pattern] abbrev eraseLine : Byte := 248
@[match_pattern] abbrev goAhead : Byte := 249
@[match_pattern] abbrev sb : Byte := 250
@[match_pattern] abbrev will : Byte := 251
@[match_pattern] abbrev wont : Byte := 252
@[match_pattern] abbrev do' : Byte := 253
@[match_pattern] abbrev dont : Byte := 254
@[match_pattern] abbrev iac : Byte := 255

@[match_pattern] abbrev echo : Byte := 1
@[match_pattern] abbrev suppressGoAhead : Byte := 3
@[match_pattern] abbrev negotiateAboutWinSize : Byte := 31

/-! ## `TelnetSession` -/

/-- `TelnetSession::State`. -/
inductive State where
  | data
  | sub
  | waitWill
  | waitWont
  | waitDo
  | waitDont
  deriving DecidableEq, Repr

/-- `TelnetSession::state` and `TelnetSession::escape`. -/
structure Rx where
  state : State := .data
  escape : Bool := false
  deriving DecidableEq, Repr

/-- What a byte makes the session do. -/
inductive RxEvent where
  /-- `Output(c)`. -/
  | output (c : Byte)
  /-- `SendIacCmd(action, op)`. -/
  | sendIacCmd (action op : Byte)
  deriving DecidableEq, Repr

def rxWill (c : Byte) : List RxEvent :=
  match c with
  | suppressGoAhead => [.sendIacCmd will suppressGoAhead]
  | negotiateAboutWinSize => [.sendIacCmd do' negotiateAboutWinSize]
  | c => [.sendIacCmd dont c]

def rxDo (c : Byte) : List RxEvent :=
  match c with
  | echo => [.sendIacCmd do' echo]
  | suppressGoAhead => [.sendIacCmd will suppressGoAhead]
  | c => [.sendIacCmd wont c]

/-- `TelnetSession::Data`; `RxSub`, `RxWont` and `RxDont` do nothing. -/
def data (state : State) (c : Byte) : State × List RxEvent :=
  match state with
  | .data => (.data, [.output c])
  | .sub => (.sub, [])
  | .waitWill => (.data, rxWill c)
  | .waitWont => (.data, [])
  | .waitDo => (.data, rxDo c)
  | .waitDont => (.data, [])

/-- `TelnetSession::Command`.  An `SE` outside a subnegotiation and an `SB` inside
one are only reported; a byte that is no command is ignored. -/
def command (state : State) (c : Byte) : State :=
  match c with
  | se => if state = .sub then .data else state
  | dataMark | break' | interruptProcess | abortOutput | areYouThere | eraseCharacter
  | eraseLine | goAhead | nop => .data
  | sb => .sub
  | will => .waitWill
  | wont => .waitWont
  | do' => .waitDo
  | dont => .waitDont
  | iac => .data
  | _ => state

/-- `TelnetSession::Consume`. -/
def consume (rx : Rx) (c : Byte) : Rx × List RxEvent :=
  if rx.escape then
    if c = iac then
      ({ state := (data rx.state c).1, escape := false }, (data rx.state c).2)
    else ({ state := command rx.state c, escape := false }, [])
  else if c = iac then ({ rx with escape := true }, [])
  else ({ rx with state := (data rx.state c).1 }, (data rx.state c).2)

/-- `TelnetSession::Encode`: what a text written to the session becomes on the wire. -/
def encode (t : Text) : Text := t.flatMap fun c => if c = 10 then [13, 10] else [c]

/-! ## `CliTelnetSession::Output` -/

/-- `std::pair<KeyType, char>`; only `KeyType::ascii` comes with a character. -/
inductive Key where
  | ascii (c : Byte)
  | up
  | down
  | left
  | right
  | backspace
  | canc
  | home
  | end'
  | ret
  | eof
  | ignored
  | clear
  deriving DecidableEq, Repr

/-- `CliTelnetSession::Step`. -/
inductive Step where
  | step1
  | step2
  | step3
  | step4
  | wait0
  deriving DecidableEq, Repr

/-- `CliTelnetSession::Output`, with the keys it notifies. -/
def output (step : Step) (c : Byte) : Step × List Key :=
  match step with
  | .step1 =>
      match c with
      | 255 | 4 => (.step1, [.eof])
      | 8 | 127 => (.step1, [.backspace])
      | 12 => (.step1, [.clear])
      | 27 => (.step2, [])
      | 13 => (.wait0, [])
      | c => (.step1, [.ascii c])
  | .step2 => if c = 91 then (.step3, []) else (.step1, [.ignored])
  | .step3 =>
      match c with
      | 65 => (.step1, [.up])
      | 66 => (.step1, [.down])
      | 68 => (.step1, [.left])
      | 67 => (.step1, [.right])
      | 70 => (.step1, [.end'])
      | 72 => (.step1, [.home])
      | _ => (.step4, [])
  | .step4 => if c = 126 then (.step1, [.canc]) else (.step1, [.ignored])
  | .wait0 => if c = 0 ∨ c = 10 then (.step1, [.ret]) else (.step1, [.ignored])

/-- What a byte of the connection makes the whole session do. -/
inductive Event where
  /-- `Notify(key)`. -/
  | key (k : Key)
  /-- `SendIacCmd(action, op)`. -/
  | answer (action op : Byte)
  deriving DecidableEq, Repr

def onRx (step : Step) (e : RxEvent) : Step × List Event :=
  match e with
  | .output c => ((output step c).1, (output step c).2.map .key)
  | .sendIacCmd action op => (step, [.answer action op])

/-- One byte of a `CliTelnetSession`. -/
def receive : Rx × Step → Byte → (Rx × Step) × List Event := pipe consume onRx

/-! ## What a client sends -/

/-- A data byte, or a telnet command. -/
inductive Item where
  | byte (c : Byte)
  | iWill (option : Byte)
  | iWont (option : Byte)
  | youDo (option : Byte)
  | youDont (option : Byte)
  | subnegotiation (parameters : List Byte)
  | simple (c : Byte)
  deriving DecidableEq, Repr

/-- A data byte on the wire: `IAC` is doubled. -/
def quote (c : Byte) : List Byte := if c = iac then [iac, iac] else [c]

namespace Item

/-- The bytes of an item on the wire. -/
def wire : Item → List Byte
  | .byte c => quote c
  | .iWill option => [iac, will, option]
  | .iWont option => [iac, wont, option]
  | .youDo option => [iac, do', option]
  | .youDont option => [iac, dont, option]
  | .subnegotiation parameters => [iac, sb] ++ parameters.flatMap quote ++ [iac, se]
  | .simple c => [iac, c]

/-- An option is no `IAC`; a command without an option is one of `NOP` to `GA`. -/
def WellFormed : Item → Prop
  | .byte _ | .subnegotiation _ => True
  | .iWill option | .iWont option | .youDo option | .youDont option => option ≠ iac
  | .simple c => nop ≤ c ∧ c ≤ goAhead

instance : DecidablePred WellFormed := fun item =>
  match item with
  | .byte _ | .subnegotiation _ => .isTrue trivial
  | .iWill option | .iWont option | .youDo option | .youDont option =>
      inferInstanceAs (Decidable (option ≠ iac))
  | .simple c => inferInstanceAs (Decidable (nop ≤ c ∧ c ≤ goAhead))

/-- What the session does for an item. -/
def events : Item → List RxEvent
  | .byte c => [.output c]
  | .iWill option => rxWill option
  | .youDo option => rxDo option
  | .iWont _ | .youDont _ | .subnegotiation _ | .simple _ => []

/-- The data bytes of an item. -/
def payload : Item → List Byte
  | .byte c => [c]
  | _ => []

/-- The answer to an item. -/
def answers : Item → List (Byte × Byte)
  | .iWill option =>
      if option = suppressGoAhead then [(will, option)]
      else if option = negotiateAboutWinSize then [(do', option)]
      else [(dont, option)]
  | .youDo option =>
      if option = echo then [(do', option)]
      else if option = suppressGoAhead then [(will, option)]
      else [(wont, option)]
  | _ => []

end Item

/-- The bytes that stand for a key. -/
inductive Spells : Key → List Byte → Prop where
  | ascii (c : Byte) (plain : c ∉ [255, 4, 8, 127, 12, 27, 13]) : Spells (.ascii c) [c]
  | eof (c : Byte) (one : c ∈ [255, 4]) : Spells .eof [c]
  | backspace (c : Byte) (one : c ∈ [8, 127]) : Spells .backspace [c]
  | clear : Spells .clear [12]
  | up : Spells .up [27, 91, 65]
  | down : Spells .down [27, 91, 66]
  | right : Spells .right [27, 91, 67]
  | left : Spells .left [27, 91, 68]
  | end' : Spells .end' [27, 91, 70]
  | home : Spells .home [27, 91, 72]
  | canc (c : Byte) (other : c ∉ [65, 66, 67, 68, 70, 72]) : Spells .canc [27, 91, c, 126]
  | ret (c : Byte) (one : c ∈ [0, 10]) : Spells .ret [13, c]
  | noBracket (c : Byte) (other : c ≠ 91) : Spells .ignored [27, c]
  | noTilde (c d : Byte) (other : c ∉ [65, 66, 67, 68, 70, 72]) (noTilde : d ≠ 126) :
      Spells .ignored [27, 91, c, d]
  | noNewline (c : Byte) (other : c ∉ [0, 10]) : Spells .ignored [13, c]

/-- The bytes that a step has kept of a key that is not complete. -/
inductive Pending : Step → List Byte → Prop where
  | step1 : Pending .step1 []
  | step2 : Pending .step2 [27]
  | step3 : Pending .step3 [27, 91]
  | step4 (c : Byte) (other : c ∉ [65, 66, 67, 68, 70, 72]) : Pending .step4 [27, 91, c]
  | wait0 : Pending .wait0 [13]

theorem encode_append (first second : Text) :
    encode (first ++ second) = encode first ++ encode second := List.flatMap_append

/-- Only newlines are rewritten. -/
theorem encode_eq_self {t : Text} (noNewline : ∀ c ∈ t, c ≠ 10) : encode t = t := by
  induction t with
  | nil => rfl
  | cons c rest ih =>
      have here : c ≠ 10 := noNewline c (by simp)
      have there := ih fun d member => noNewline d (by simp [member])
      simp only [encode] at there
      simp [encode, here, there]

/-! ## The telnet commands are taken out -/

theorem consume_of_ne {state : State} {c : Byte} (plain : c ≠ iac) :
    consume { state := state } c = ({ state := (data state c).1 }, (data state c).2) := by
  simp [consume, plain]

theorem consume_iac (state : State) :
    consume { state := state } iac = ({ state := state, escape := true }, []) := rfl

theorem consume_escaped {state : State} {c : Byte} (plain : c ≠ iac) :
    consume { state := state, escape := true } c = ({ state := command state c }, []) := by
  simp [consume, plain]

/-- A quoted byte is read as data in every state. -/
theorem feed_consume_quote (state : State) (c : Byte) :
    feed consume { state := state } (quote c) =
      ({ state := (data state c).1 }, (data state c).2) := by
  by_cases escaped : c = iac
  · subst escaped
    rw [quote, if_pos rfl, feed_cons, consume_iac]
    simp [consume]
  · rw [quote, if_neg escaped, feed_singleton]
    exact consume_of_ne escaped

/-- A command that takes an option, and the option. -/
theorem feed_consume_option {verb option : Byte} (plain : option ≠ iac) (noIac : verb ≠ iac) :
    feed consume {} [iac, verb, option] =
      ({ state := (data (command .data verb) option).1 },
        (data (command .data verb) option).2) := by
  rw [feed_cons, consume_iac, feed_cons, consume_escaped noIac, feed_singleton,
    consume_of_ne plain]
  rfl

theorem feed_consume_subnegotiation (parameters : List Byte) :
    feed consume {} ([iac, sb] ++ parameters.flatMap quote ++ [iac, se]) = ({}, []) := by
  have opened : feed consume {} [iac, sb] = ({ state := .sub }, []) := rfl
  have closed : feed consume { state := .sub } [iac, se] = ({}, []) := rfl
  have inside : feed consume { state := .sub } (parameters.flatMap quote) =
      ({ state := .sub }, parameters.flatMap fun _ => []) :=
    have each (c : Byte) (_ : True) := feed_consume_quote .sub c
    feed_code each fun _ _ => trivial
  rw [feed_append, feed_append, opened, inside, closed]
  simp

/-- **The rule of the command reader.**  After each item it is back where it was. -/
theorem feed_consume_wire {item : Item} (wellFormed : item.WellFormed) :
    feed consume {} item.wire = ({}, item.events) := by
  cases item with
  | byte c => exact feed_consume_quote .data c
  | iWill option => exact feed_consume_option wellFormed (by decide)
  | iWont option => exact feed_consume_option wellFormed (by decide)
  | youDo option => exact feed_consume_option wellFormed (by decide)
  | youDont option => exact feed_consume_option wellFormed (by decide)
  | subnegotiation parameters => exact feed_consume_subnegotiation parameters
  | simple c =>
      obtain ⟨low, high⟩ := wellFormed
      have noIac : c ≠ iac := by
        rintro rfl
        exact absurd high (by decide)
      have back : command .data c = .data := by
        have low' : 241 ≤ c.toNat := UInt8.le_iff_toNat_le.mp low
        have high' : c.toNat ≤ 249 := UInt8.le_iff_toNat_le.mp high
        unfold command
        split <;> first | rfl | (exfalso; revert low' high'; decide)
      rw [Item.wire, feed_cons, consume_iac, feed_singleton, consume_escaped noIac, back]
      rfl

theorem feed_consume_items {items : List Item} (wellFormed : ∀ item ∈ items, item.WellFormed) :
    feed consume {} (items.flatMap Item.wire) = ({}, items.flatMap Item.events) :=
  feed_code (fun _ good => feed_consume_wire good) wellFormed

/-! ## The keys are found -/

theorem feed_output_of_spells {k : Key} {word : List Byte} (spells : Spells k word) :
    feed output .step1 word = (.step1, [k]) := by
  cases spells with
  | ascii c plain =>
      rw [feed_singleton]
      simp only [List.mem_cons, List.not_mem_nil, or_false, not_or] at plain
      simp only [output]
      split <;> simp_all
  | eof c one => rcases List.mem_pair.mp one with rfl | rfl <;> rfl
  | backspace c one => rcases List.mem_pair.mp one with rfl | rfl <;> rfl
  | clear => rfl
  | up => rfl
  | down => rfl
  | right => rfl
  | left => rfl
  | end' => rfl
  | home => rfl
  | canc c other =>
      simp only [List.mem_cons, List.not_mem_nil, or_false, not_or] at other
      simp only [feed_cons, output, feed_nil]
      split <;> simp_all
  | ret c one => rcases List.mem_pair.mp one with rfl | rfl <;> rfl
  | noBracket c other => simp [feed_cons, output, other]
  | noTilde c d other noTilde =>
      simp only [List.mem_cons, List.not_mem_nil, or_false, not_or] at other
      simp only [feed_cons, output, feed_nil]
      split <;> simp_all
  | noNewline c other =>
      simp only [List.mem_cons, List.not_mem_nil, or_false, not_or] at other
      simp [feed_cons, output, other]

theorem feed_output_of_pending {step : Step} {tail : List Byte} (pending : Pending step tail) :
    feed output .step1 tail = (step, []) := by
  cases pending with
  | step1 => rfl
  | step2 => rfl
  | step3 => rfl
  | step4 c other =>
      simp only [List.mem_cons, List.not_mem_nil, or_false, not_or] at other
      simp only [feed_cons, output, feed_nil]
      split <;> simp_all
  | wait0 => rfl

/-- **One byte.**  It completes a key with the bytes kept so far, or is kept with them. -/
theorem output_cases {step : Step} {tail : List Byte} (pending : Pending step tail) (c : Byte) :
    (∃ k, Spells k (tail ++ [c]) ∧ output step c = (.step1, [k])) ∨
      (Pending (output step c).1 (tail ++ [c]) ∧ (output step c).2 = []) := by
  cases pending with
  | step1 =>
      simp only [output, List.nil_append]
      split
      · exact .inl ⟨_, .eof 255 (by decide), rfl⟩
      · exact .inl ⟨_, .eof 4 (by decide), rfl⟩
      · exact .inl ⟨_, .backspace 8 (by decide), rfl⟩
      · exact .inl ⟨_, .backspace 127 (by decide), rfl⟩
      · exact .inl ⟨_, .clear, rfl⟩
      · exact .inr ⟨.step2, rfl⟩
      · exact .inr ⟨.wait0, rfl⟩
      · exact .inl ⟨_, .ascii c (by simp_all), rfl⟩
  | step2 =>
      by_cases bracket : c = 91
      · subst bracket
        exact .inr ⟨.step3, rfl⟩
      · exact .inl ⟨_, .noBracket c bracket, by simp [output, bracket]⟩
  | step3 =>
      simp only [output, List.cons_append, List.nil_append]
      split
      · exact .inl ⟨_, .up, rfl⟩
      · exact .inl ⟨_, .down, rfl⟩
      · exact .inl ⟨_, .left, rfl⟩
      · exact .inl ⟨_, .right, rfl⟩
      · exact .inl ⟨_, .end', rfl⟩
      · exact .inl ⟨_, .home, rfl⟩
      · exact .inr ⟨.step4 c (by simp_all), rfl⟩
  | step4 d other =>
      by_cases tilde : c = 126
      · subst tilde
        exact .inl ⟨_, .canc d other, rfl⟩
      · exact .inl ⟨_, .noTilde d c other tilde, by simp [output, tilde]⟩
  | wait0 =>
      by_cases newline : c = 0 ∨ c = 10
      · exact .inl ⟨_, .ret c (by simpa using newline), by simp [output, newline]⟩
      · exact .inl ⟨_, .noNewline c (by simpa using newline), by simp [output, newline]⟩

/-- **The rule of the key reader.**  For every stream of bytes: the keys notified are
those that the stream spells, and the step is what an unfinished key at its end has
left behind. -/
theorem feed_output_iff {bytes : List Byte} {step : Step} {keys : List Key} :
    feed output .step1 bytes = (step, keys) ↔
      ∃ words tail, List.Forall₂ Spells keys words ∧ Pending step tail ∧
        bytes = words.flatten ++ tail := by
  constructor
  · intro fed
    induction bytes using List.reverseRecOn generalizing step keys with
    | nil =>
        obtain ⟨rfl, rfl⟩ := Prod.mk.inj fed
        exact ⟨[], [], .nil, .step1, rfl⟩
    | append_singleton bytes c ih =>
        obtain ⟨words, tail, spelled, pending, rfl⟩ := ih rfl
        rw [feed_append, feed_singleton] at fed
        obtain ⟨rfl, rfl⟩ := Prod.mk.inj fed
        rcases output_cases pending c with ⟨k, spells, wrote⟩ | ⟨kept, wrote⟩
        · refine ⟨words ++ [tail ++ [c]], [], ?_, ?_, by simp⟩
          · rw [wrote]
            exact List.rel_append spelled (.cons spells .nil)
          · rw [wrote]
            exact .step1
        · refine ⟨words, tail ++ [c], ?_, kept, by simp⟩
          rw [wrote, List.append_nil]
          exact spelled
  · rintro ⟨words, tail, spelled, pending, rfl⟩
    have whole := feed_relation (fun _ _ => feed_output_of_spells) spelled
    rw [feed_append, whole, feed_output_of_pending pending]
    simp

/-! ## The two in a row -/

/-- The keys among the events. -/
def keysOf (events : List Event) : List Key :=
  events.filterMap fun e =>
    match e with
    | .key k => some k
    | .answer _ _ => none

/-- The answers among the events. -/
def answersOf (events : List Event) : List (Byte × Byte) :=
  events.filterMap fun e =>
    match e with
    | .key _ => none
    | .answer action op => some (action, op)

theorem keysOf_append (first second : List Event) :
    keysOf (first ++ second) = keysOf first ++ keysOf second := List.filterMap_append

theorem answersOf_append (first second : List Event) :
    answersOf (first ++ second) = answersOf first ++ answersOf second := List.filterMap_append

/-- The data bytes among what the first machine writes. -/
def outputsOf (events : List RxEvent) : List Byte :=
  events.filterMap fun e =>
    match e with
    | .output c => some c
    | .sendIacCmd _ _ => none

/-- The keys depend on the data bytes only. -/
theorem keysOf_feed_onRx (step : Step) (events : List RxEvent) :
    (feed onRx step events).1 = (feed output step (outputsOf events)).1 ∧
      keysOf (feed onRx step events).2 = (feed output step (outputsOf events)).2 := by
  induction events generalizing step with
  | nil => exact ⟨rfl, rfl⟩
  | cons e rest ih =>
      cases e with
      | output c =>
          obtain ⟨state, keys⟩ := ih (output step c).1
          have here : keysOf ((output step c).2.map .key) = (output step c).2 := by
            simp [keysOf, List.filterMap_map]
          refine ⟨state, ?_⟩
          rw [feed_cons, keysOf_append]
          exact congrArg₂ _ here keys
      | sendIacCmd action op => exact ih step

theorem answersOf_feed_onRx (step : Step) (events : List RxEvent) :
    answersOf (feed onRx step events).2 =
      events.filterMap fun e =>
        match e with
        | .output _ => none
        | .sendIacCmd action op => some (action, op) := by
  induction events generalizing step with
  | nil => rfl
  | cons e rest ih =>
      cases e with
      | output c =>
          have here : answersOf ((output step c).2.map .key) = [] := by
            simp [answersOf, List.filterMap_map]
          rw [feed_cons, answersOf_append]
          simpa [onRx, here] using ih _
      | sendIacCmd action op =>
          rw [feed_cons, answersOf_append]
          simpa [onRx, answersOf] using ih step

theorem outputsOf_events (items : List Item) :
    outputsOf (items.flatMap Item.events) = items.flatMap Item.payload := by
  have will (option : Byte) : outputsOf (rxWill option) = [] := by
    unfold rxWill
    split <;> rfl
  have does (option : Byte) : outputsOf (rxDo option) = [] := by
    unfold rxDo
    split <;> rfl
  induction items with
  | nil => rfl
  | cons item rest ih =>
      simp only [List.flatMap_cons, outputsOf, List.filterMap_append] at ih ⊢
      rw [ih]
      congr 1
      cases item with
      | iWill option => exact will option
      | youDo option => exact does option
      | _ => rfl

/-- **A whole script.**  A client sends data bytes that spell `keys` and, between any
two of these bytes, telnet commands; the connection cuts the bytes into any pieces.
Every key is notified once and in order, every `WILL` and `DO` is answered once and
in order, and the session is ready for the next key. -/
theorem receive_script {items : List Item} {keys : List Key} {words pieces : List (List Byte)}
    (wellFormed : ∀ item ∈ items, item.WellFormed) (spelled : List.Forall₂ Spells keys words)
    (typed : items.flatMap Item.payload = words.flatten)
    (sent : pieces.flatten = items.flatMap Item.wire) :
    (deliver receive ({}, .step1) pieces).1 = ({}, .step1) ∧
      keysOf (deliver receive ({}, .step1) pieces).2 = keys ∧
      answersOf (deliver receive ({}, .step1) pieces).2 = items.flatMap Item.answers := by
  have found : feed output .step1 (outputsOf (items.flatMap Item.events)) = (.step1, keys) := by
    rw [outputsOf_events, typed]
    exact feed_relation (fun _ _ => feed_output_of_spells) spelled
  obtain ⟨step, notified⟩ := keysOf_feed_onRx .step1 (items.flatMap Item.events)
  have answered := answersOf_feed_onRx .step1 (items.flatMap Item.events)
  rw [deliver_eq, sent, receive, feed_pipe, feed_consume_items wellFormed]
  refine ⟨?_, ?_, ?_⟩
  · rw [step, found]
  · rw [notified, found]
  · rw [answered, List.filterMap_flatMap]
    congr 1
    funext item
    cases item with
    | iWill option =>
        simp only [Item.events, rxWill, Item.answers]
        split
        · rfl
        · rfl
        · simp_all
    | youDo option =>
        simp only [Item.events, rxDo, Item.answers]
        split
        · rfl
        · rfl
        · simp_all
    | _ => rfl

/-- An `h` and an arrow up, with a `DO` and a `WILL` between their bytes, in three packets. -/
theorem receive_script_arrowUp :
    (deliver receive ({}, .step1) [[104, 255], [253, 1, 27, 91], [255, 251, 31, 65]]).1 =
        ({}, .step1) ∧
      keysOf (deliver receive ({}, .step1) [[104, 255], [253, 1, 27, 91], [255, 251, 31, 65]]).2 =
        [.ascii 104, .up] ∧
      answersOf (deliver receive ({}, .step1) [[104, 255], [253, 1, 27, 91], [255, 251, 31, 65]]).2 =
        [(do', echo), (do', negotiateAboutWinSize)] := by
  have wellFormed : ∀ item ∈ [Item.byte 104, .youDo echo, .byte 27, .byte 91,
      .iWill negotiateAboutWinSize, .byte 65], item.WellFormed := by decide
  have spelled : List.Forall₂ Spells [.ascii 104, .up] [[104], [27, 91, 65]] :=
    .cons (.ascii 104 (by decide)) (.cons .up .nil)
  exact receive_script wellFormed spelled rfl rfl

end Lynx.Cli.Telnet
