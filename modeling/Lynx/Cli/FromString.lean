/-
# Cli.FromString — the numbers of a command line

`unsigned_digits_from_string` finds an overflow by undoing the last step in the
same wrapping arithmetic.  `unsignedDigits_eq_some_iff` says that it finds every
one: a text is accepted exactly when it is a number below 2 ^ 32, with that number
as the result.  From it follow the rules for `unsigned` and `int`, and that every
`int` is read back from what `operator<<` prints.

Only these two types are instantiated by the commands of this program; the class
`bad_conversion` is `none`.  `static_cast<U>(-min)` and `-static_cast<T>(val)` wrap,
as they do on the machines this is compiled for.
-/
import Lynx.Cli.Text

namespace Lynx.Cli.FromString

set_option autoImplicit false

/-- The body of the loop of `unsigned_digits_from_string<unsigned>`. -/
def pushDigit (result : UInt32) (c : Byte) : Option UInt32 :=
  if isdigit c then
    let digit : UInt32 := (c - 48).toUInt32
    let tmp := result * 10 + digit
    if result ≠ (tmp - digit) / 10 ∨ tmp < result then none else some tmp
  else none

/-- `unsigned_digits_from_string<unsigned>`. -/
def unsignedDigitsFromString (s : Text) : Option UInt32 :=
  if s.isEmpty then none else s.foldlM pushDigit 0

/-- `unsigned_from_string<unsigned>`. -/
def unsignedFromString (s : Text) : Option UInt32 :=
  match s with
  | [] => none
  | 43 :: rest => unsignedDigitsFromString rest
  | s => unsignedDigitsFromString s

/-- `signed_from_string<int>`. -/
def signedFromString (s : Text) : Option Int32 :=
  match s with
  | [] => none
  | 45 :: rest =>
      (unsignedDigitsFromString rest).bind fun val =>
        if val > 2147483648 then none else some (-val.toInt32)
  | 43 :: rest =>
      (unsignedDigitsFromString rest).bind fun val =>
        if val > 2147483647 then none else some val.toInt32
  | s =>
      (unsignedDigitsFromString s).bind fun val =>
        if val > 2147483647 then none else some val.toInt32

/-! ## The numbers that texts stand for -/

/-- Read digits, after those that make `n`. -/
def readDigits (n : Nat) (digits : Text) : Nat :=
  digits.foldl (fun n c => 10 * n + (c.toNat - 48)) n

/-- The digits of a number: at least one. -/
def IsDigits (s : Text) : Prop := s ≠ [] ∧ Digits s

instance (s : Text) : Decidable (IsDigits s) := inferInstanceAs (Decidable (s ≠ [] ∧ Digits s))

@[simp] theorem readDigits_nil (n : Nat) : readDigits n [] = n := rfl

theorem readDigits_cons (n : Nat) (c : Byte) (rest : Text) :
    readDigits n (c :: rest) = readDigits (10 * n + (c.toNat - 48)) rest := by
  exact List.foldl_cons

theorem le_readDigits (n : Nat) (digits : Text) : n ≤ readDigits n digits := by
  induction digits generalizing n with
  | nil => exact Nat.le_refl n
  | cons c rest ih =>
      have later := ih (10 * n + (c.toNat - 48))
      rw [readDigits_cons]
      omega

theorem isdigit_bounds {c : Byte} (digit : isdigit c = true) : 48 ≤ c.toNat ∧ c.toNat ≤ 57 := by
  simp only [isdigit, Bool.and_eq_true, decide_eq_true_eq, UInt8.le_iff_toNat_le] at digit
  exact digit

theorem toNat_digit {c : Byte} (digit : isdigit c = true) :
    (c - 48).toUInt32.toNat = c.toNat - 48 := by
  have low : (48 : Byte) ≤ c := UInt8.le_iff_toNat_le.mpr (isdigit_bounds digit).1
  rw [UInt8.toNat_toUInt32, UInt8.toNat_sub_of_le _ _ low]
  rfl

/-- The test of the loop finds exactly the overflows. -/
theorem overflow_iff (result : UInt32) {digit : UInt32} (small : digit.toNat ≤ 9) :
    (result ≠ (result * 10 + digit - digit) / 10 ∨ result * 10 + digit < result) ↔
      2 ^ 32 ≤ 10 * result.toNat + digit.toNat := by
  have bound := result.toNat_lt
  simp only [ne_eq, ← UInt32.toNat_inj, UInt32.lt_iff_toNat_lt, UInt32.toNat_div,
    UInt32.toNat_sub, UInt32.toNat_add, UInt32.toNat_mul]
  simp only [UInt32.reduceToNat]
  omega

/-- **One digit** is taken exactly when the number with it fits. -/
theorem pushDigit_eq_some_iff {result value : UInt32} {c : Byte} :
    pushDigit result c = some value ↔
      isdigit c = true ∧ value.toNat = 10 * result.toNat + (c.toNat - 48) := by
  unfold pushDigit
  by_cases digit : isdigit c = true
  · obtain ⟨-, high⟩ := isdigit_bounds digit
    have number := toNat_digit digit
    have small : (c - 48).toUInt32.toNat ≤ 9 := by omega
    have overflow := overflow_iff result small
    have sum : (result * 10 + (c - 48).toUInt32).toNat =
        (10 * result.toNat + (c.toNat - 48)) % 2 ^ 32 := by
      simp only [UInt32.toNat_add, UInt32.toNat_mul, number, UInt32.reduceToNat]
      omega
    simp only [digit, if_true, overflow, number, true_and]
    split
    · rename_i large
      have fits := value.toNat_lt
      simp only [reduceCtorEq, false_iff]
      omega
    · rename_i fits
      rw [Option.some.injEq, ← UInt32.toNat_inj, sum, Nat.mod_eq_of_lt (by omega), eq_comm]
  · simp [digit]

theorem foldlM_pushDigit_iff (digits : Text) (result : UInt32) {value : UInt32} :
    digits.foldlM pushDigit result = some value ↔
      (∀ c ∈ digits, isdigit c = true) ∧ value.toNat = readDigits result.toNat digits := by
  induction digits generalizing result with
  | nil =>
      simp only [List.foldlM_nil, List.not_mem_nil, false_implies, implies_true, true_and,
        readDigits_nil, UInt32.toNat_inj]
      exact ⟨fun same => (Option.some.inj same).symm, fun same => congrArg some same.symm⟩
  | cons c rest ih =>
      simp only [List.foldlM_cons, List.forall_mem_cons, readDigits_cons]
      constructor
      · intro found
        obtain ⟨middle, pushed, later⟩ := Option.bind_eq_some_iff.mp found
        obtain ⟨digit, number⟩ := pushDigit_eq_some_iff.mp pushed
        obtain ⟨digits, value⟩ := (ih middle).mp later
        exact ⟨⟨digit, digits⟩, by rw [value, number]⟩
      · rintro ⟨⟨digit, digits⟩, number⟩
        have fits : 10 * result.toNat + (c.toNat - 48) < 2 ^ 32 := by
          have least := le_readDigits (10 * result.toNat + (c.toNat - 48)) rest
          have most := value.toNat_lt
          omega
        have pushed : pushDigit result c =
            some (UInt32.ofNat (10 * result.toNat + (c.toNat - 48))) :=
          pushDigit_eq_some_iff.mpr ⟨digit, UInt32.toNat_ofNat_of_lt' fits⟩
        apply Option.bind_eq_some_iff.mpr
        refine ⟨_, pushed, (ih _).mpr ⟨digits, ?_⟩⟩
        rw [number, UInt32.toNat_ofNat_of_lt' fits]

/-- **The digits of a number below 2 ^ 32 are accepted, and nothing else.** -/
theorem unsignedDigits_eq_some_iff {s : Text} {value : UInt32} :
    unsignedDigitsFromString s = some value ↔
      IsDigits s ∧ value.toNat = readDigits 0 s := by
  unfold unsignedDigitsFromString IsDigits
  cases s with
  | nil => simp
  | cons c rest =>
      rw [and_iff_right (List.cons_ne_nil c rest)]
      exact foldlM_pushDigit_iff (c :: rest) 0

/-! ## `unsigned` and `int` -/

/-- What a text with an optional sign stands for. -/
inductive Denotes : Text → Int → Prop where
  | bare {digits : Text} (isDigits : IsDigits digits) : Denotes digits (readDigits 0 digits)
  | plus {digits : Text} (isDigits : IsDigits digits) :
      Denotes (43 :: digits) (readDigits 0 digits)
  | minus {digits : Text} (isDigits : IsDigits digits) :
      Denotes (45 :: digits) (-(readDigits 0 digits : Int))

theorem toInt_toInt32 {val : UInt32} (fits : val.toNat < 2 ^ 31) :
    val.toInt32.toInt = val.toNat := by
  have same : val.toInt32.toInt = val.toBitVec.toInt := rfl
  rw [same, BitVec.toInt_eq_toNat_bmod]
  have number : val.toBitVec.toNat = val.toNat := rfl
  rw [number]
  apply Int.bmod_eq_of_le
  · omega
  · omega

/-- The negation wraps at `INT_MIN`, and gives it. -/
theorem toInt_neg_toInt32 {val : UInt32} (fits : val.toNat ≤ 2 ^ 31) :
    (-val.toInt32).toInt = -(val.toNat : Int) := by
  by_cases least : val.toNat = 2 ^ 31
  · obtain rfl : val = 2147483648 := UInt32.toNat_inj.mp least
    decide
  · rw [Int32.toInt_neg, toInt_toInt32 (by omega)]
    apply Int.bmod_eq_of_le
    · omega
    · omega

theorem signed_eq {s : Text} (notMinus : s.head? ≠ some 45) (notPlus : s.head? ≠ some 43)
    (some' : s ≠ []) :
    signedFromString s = (unsignedDigitsFromString s).bind fun val =>
      if val > 2147483647 then none else some val.toInt32 := by
  unfold signedFromString
  split
  · exact absurd rfl some'
  · exact absurd rfl notMinus
  · exact absurd rfl notPlus
  · rfl

/-- The digits of an `int`, after an optional `+`. -/
theorem positive_iff {digits : Text} {value : Int32} :
    ((unsignedDigitsFromString digits).bind fun val =>
        if val > 2147483647 then none else some val.toInt32) = some value ↔
      IsDigits digits ∧ value.toInt = readDigits 0 digits := by
  constructor
  · intro found
    obtain ⟨val, digits, result⟩ := Option.bind_eq_some_iff.mp found
    obtain ⟨isDigits, number⟩ := unsignedDigits_eq_some_iff.mp digits
    split at result
    · cases result
    · rename_i small
      rw [gt_iff_lt, UInt32.lt_iff_toNat_lt] at small
      obtain rfl := Option.some.inj result
      refine ⟨isDigits, ?_⟩
      rw [toInt_toInt32 (by simp at small; omega), number]
  · rintro ⟨isDigits, number⟩
    have most := value.toInt_lt
    have fits : readDigits 0 digits < 2 ^ 31 := by omega
    have small : readDigits 0 digits < UInt32.size := by
      rw [UInt32.size]
      omega
    have found := unsignedDigits_eq_some_iff.mpr
      ⟨isDigits, UInt32.toNat_ofNat_of_lt' small⟩
    have notLarge : ¬ UInt32.ofNat (readDigits 0 digits) > 2147483647 := by
      rw [gt_iff_lt, UInt32.lt_iff_toNat_lt, UInt32.toNat_ofNat_of_lt' small]
      simp
      omega
    rw [found, Option.bind_some, if_neg notLarge]
    congr 1
    apply Int32.toInt_inj.mp
    rw [toInt_toInt32 (by rw [UInt32.toNat_ofNat_of_lt' small]; exact fits),
      UInt32.toNat_ofNat_of_lt' small, number]

/-- The digits of an `int` after a `-`. -/
theorem negative_iff {digits : Text} {value : Int32} :
    ((unsignedDigitsFromString digits).bind fun val =>
        if val > 2147483648 then none else some (-val.toInt32)) = some value ↔
      IsDigits digits ∧ value.toInt = -(readDigits 0 digits : Int) := by
  constructor
  · intro found
    obtain ⟨val, digits, result⟩ := Option.bind_eq_some_iff.mp found
    obtain ⟨isDigits, number⟩ := unsignedDigits_eq_some_iff.mp digits
    split at result
    · cases result
    · rename_i small
      rw [gt_iff_lt, UInt32.lt_iff_toNat_lt] at small
      obtain rfl := Option.some.inj result
      refine ⟨isDigits, ?_⟩
      rw [toInt_neg_toInt32 (by simp at small; omega), number]
  · rintro ⟨isDigits, number⟩
    have least := value.le_toInt
    have fits : readDigits 0 digits ≤ 2 ^ 31 := by omega
    have small : readDigits 0 digits < UInt32.size := by
      rw [UInt32.size]
      omega
    have found := unsignedDigits_eq_some_iff.mpr
      ⟨isDigits, UInt32.toNat_ofNat_of_lt' small⟩
    have notLarge : ¬ UInt32.ofNat (readDigits 0 digits) > 2147483648 := by
      rw [gt_iff_lt, UInt32.lt_iff_toNat_lt, UInt32.toNat_ofNat_of_lt' small]
      simp
      omega
    rw [found, Option.bind_some, if_neg notLarge]
    congr 1
    apply Int32.toInt_inj.mp
    rw [toInt_neg_toInt32 (by rw [UInt32.toNat_ofNat_of_lt' small]; exact fits),
      UInt32.toNat_ofNat_of_lt' small, number]

/-- Digits begin with no sign. -/
theorem IsDigits.head? {digits : Text} (isDigits : IsDigits digits) :
    digits.head? ≠ some 45 ∧ digits.head? ≠ some 43 := by
  obtain ⟨some', digit⟩ := isDigits
  cases digits with
  | nil => exact absurd rfl some'
  | cons c rest =>
      have here := digit c (by simp)
      constructor <;> (rintro ⟨⟩; exact absurd here (by decide))

/-- A text that stands for an `int` is accepted. -/
theorem signedFromString_of_denotes {s : Text} {value : Int32} (denotes : Denotes s value.toInt) :
    signedFromString s = some value := by
  generalize same : value.toInt = n at denotes
  cases denotes with
  | bare isDigits =>
      rw [signed_eq isDigits.head?.1 isDigits.head?.2 isDigits.1]
      exact positive_iff.mpr ⟨isDigits, same⟩
  | plus isDigits => exact positive_iff.mpr ⟨isDigits, same⟩
  | minus isDigits => exact negative_iff.mpr ⟨isDigits, same⟩

/-- **`from_string<int>`** accepts a text exactly when it stands for an `int`, and
gives that `int`. -/
theorem signedFromString_eq_some_iff {s : Text} {value : Int32} :
    signedFromString s = some value ↔ Denotes s value.toInt := by
  constructor
  · intro found
    unfold signedFromString at found
    split at found
    · cases found
    · obtain ⟨isDigits, number⟩ := negative_iff.mp found
      rw [number]
      exact .minus isDigits
    · obtain ⟨isDigits, number⟩ := positive_iff.mp found
      rw [number]
      exact .plus isDigits
    · obtain ⟨isDigits, number⟩ := positive_iff.mp found
      rw [number]
      exact .bare isDigits
  · exact signedFromString_of_denotes

/-- **`from_string<unsigned>`** likewise; it takes no `-`. -/
theorem unsignedFromString_eq_some_iff {s : Text} {value : UInt32} :
    unsignedFromString s = some value ↔ Denotes s value.toNat ∧ s.head? ≠ some 45 := by
  constructor
  · intro found
    unfold unsignedFromString at found
    split at found
    · cases found
    · obtain ⟨isDigits, number⟩ := unsignedDigits_eq_some_iff.mp found
      rw [number]
      exact ⟨.plus isDigits, by simp⟩
    · obtain ⟨isDigits, number⟩ := unsignedDigits_eq_some_iff.mp found
      rw [number]
      exact ⟨.bare isDigits, isDigits.head?.1⟩
  · rintro ⟨denotes, noMinus⟩
    generalize same : (value.toNat : Int) = n at denotes
    cases denotes with
    | bare isDigits =>
        have plain : unsignedFromString s = unsignedDigitsFromString s := by
          unfold unsignedFromString
          split
          · rfl
          · exact absurd rfl isDigits.head?.2
          · rfl
        rw [plain]
        exact unsignedDigits_eq_some_iff.mpr ⟨isDigits, by omega⟩
    | plus isDigits => exact unsignedDigits_eq_some_iff.mpr ⟨isDigits, by omega⟩
    | minus isDigits => exact absurd rfl noMinus

/-! ## Printing and reading back -/

/-- `operator<<` of an unsigned number. -/
def printNat (n : Nat) : Text := (Nat.toDigits 10 n).map fun c => UInt8.ofNat c.toNat

/-- `operator<<` of an `int`. -/
def printInt (n : Int) : Text := if n < 0 then 45 :: printNat n.natAbs else printNat n.natAbs

theorem toNat_ofNat_digit {c : Char} (digit : c.isDigit = true) :
    (UInt8.ofNat c.toNat).toNat = c.toNat := by
  have high : c.toNat ≤ 57 := by
    simp only [Char.isDigit, Bool.and_eq_true, decide_eq_true_eq] at digit
    exact UInt32.le_iff_toNat_le.mp digit.2
  apply UInt8.toNat_ofNat_of_lt'
  rw [UInt8.size]
  omega

theorem isDigits_printNat (n : Nat) : IsDigits (printNat n) := by
  refine ⟨by simp [printNat, Nat.toDigits_ne_nil], ?_⟩
  intro c member
  obtain ⟨d, inDigits, rfl⟩ := List.mem_map.mp member
  have digit := Nat.isDigit_of_mem_toDigits (by decide) (by decide) inDigits
  have number := toNat_ofNat_digit digit
  simp only [Char.isDigit, Bool.and_eq_true, decide_eq_true_eq] at digit
  have low : 48 ≤ d.toNat := UInt32.le_iff_toNat_le.mp digit.1
  have high : d.toNat ≤ 57 := UInt32.le_iff_toNat_le.mp digit.2
  simp only [isdigit, Bool.and_eq_true, decide_eq_true_eq, UInt8.le_iff_toNat_le, number]
  exact ⟨low, high⟩

theorem readDigits_map (n : Nat) {digits : List Char} (all : ∀ c ∈ digits, c.isDigit = true) :
    readDigits n (digits.map fun c => UInt8.ofNat c.toNat) = Nat.ofDigitChars 10 digits n := by
  induction digits generalizing n with
  | nil => simp
  | cons c rest ih =>
      rw [List.map_cons, readDigits_cons, toNat_ofNat_digit (all c (by simp)),
        ih _ fun d member => all d (by simp [member]), Nat.ofDigitChars_cons]
      rfl

theorem readDigits_printNat (n : Nat) : readDigits 0 (printNat n) = n := by
  rw [printNat, readDigits_map 0 fun c member =>
    Nat.isDigit_of_mem_toDigits (by decide) (by decide) member]
  exact Nat.ofDigitChars_ten_toDigits

/-- **Every `int` that a command prints is read back as itself.** -/
theorem signedFromString_printInt (value : Int32) :
    signedFromString (printInt value.toInt) = some value := by
  apply signedFromString_of_denotes
  have digits := isDigits_printNat value.toInt.natAbs
  have number := readDigits_printNat value.toInt.natAbs
  unfold printInt
  split
  · rename_i negative
    have same : value.toInt = -(readDigits 0 (printNat value.toInt.natAbs) : Int) := by omega
    have denotes := Denotes.minus digits
    rwa [← same] at denotes
  · rename_i nonnegative
    have same : value.toInt = (readDigits 0 (printNat value.toInt.natAbs) : Int) := by omega
    have denotes := Denotes.bare digits
    rwa [← same] at denotes

end Lynx.Cli.FromString
