/-
# Cli.Text — bytes and texts of the command-line library

`char` is a byte and `std::string` a list of bytes.  The character tests are those
of the C locale; a byte from 128 on is neither a space nor a digit there.
-/
import Mathlib

namespace Lynx.Cli

set_option autoImplicit false

/-- `char`. -/
abbrev Byte := UInt8

/-- `std::string`. -/
abbrev Text := List Byte

/-- A string literal of the source. -/
def text (literal : String) : Text := literal.toList.map fun c => UInt8.ofNat c.toNat

/-- `std::isspace`. -/
def isspace (c : Byte) : Bool := c == 32 || (9 ≤ c && c ≤ 13)

/-- `std::isdigit`. -/
def isdigit (c : Byte) : Bool := 48 ≤ c && c ≤ 57

/-- A byte that moves the cursor of a terminal one cell to the right, and does
nothing else. -/
def isprint (c : Byte) : Bool := 32 ≤ c && c ≤ 126

/-- `line.rfind(name, 0) == 0`. -/
def startsWith (line name : Text) : Bool := name.isPrefixOf line

/-- The `trim_left` of the completions. -/
def trimLeft (line : Text) : Text := line.dropWhile isspace

/-- A text of cells. -/
def Printable (t : Text) : Prop := ∀ c ∈ t, isprint c = true

instance (t : Text) : Decidable (Printable t) := List.decidableBAll _ t

/-- A text of digits. -/
def Digits (t : Text) : Prop := ∀ c ∈ t, isdigit c = true

instance (t : Text) : Decidable (Digits t) := List.decidableBAll _ t

theorem printable_append {first second : Text} :
    Printable (first ++ second) ↔ Printable first ∧ Printable second :=
  List.forall_mem_append

theorem startsWith_iff {line name : Text} : startsWith line name = true ↔ name <+: line :=
  List.isPrefixOf_iff_prefix

theorem trimLeft_isSuffix (line : Text) : trimLeft line <:+ line := List.dropWhile_suffix _

theorem length_trimLeft_le (line : Text) : (trimLeft line).length ≤ line.length :=
  (trimLeft_isSuffix line).length_le

end Lynx.Cli
