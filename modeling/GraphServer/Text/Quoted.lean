import GraphServer.Text.Extender
import GraphServer.Text.Unprintable

/-!
Quoted text: a text between double quotes in which the quote, the backslash and the characters that
cannot be seen on their own are written with a backslash. Everything else stands for itself, the
apostrophe included.

* `Quoted.escape_of_plain`: an ASCII character that is no control character, quote or backslash stands
  for itself.
-/

namespace GraphServer.Quoted

/-- Lower-case hexadecimal digits without leading zeros. -/
def hexDigits (n : Nat) : List Char :=
  Nat.toDigits 16 n

/-- The number of a character, written with a backslash. -/
def numbered (c : Char) : List Char :=
  ['\\', 'u', '\x7b'] ++ hexDigits c.toNat ++ ['\x7d']

/-- The written form of one character. -/
def escape : Char → List Char
  | '"' => ['\\', '"']
  | '\\' => ['\\', '\\']
  | '\n' => ['\\', 'n']
  | '\r' => ['\\', 'r']
  | '\t' => ['\\', 't']
  | '\x00' => ['\\', '0']
  | c => if Unprintable.contains c || Extender.contains c then numbered c else [c]

/-- The quoted form of a text. -/
def encode (text : String) : String :=
  String.ofList ('"' :: text.toList.flatMap escape ++ ['"'])

/-- Texts in square brackets, separated by commas. -/
def list (items : List String) : String :=
  "[" ++ String.intercalate ", " items ++ "]"

/-- Whether a character is ASCII and no control character, quote or backslash. -/
def isPlain (c : Char) : Bool :=
  0x20 ≤ c.toNat && c.toNat < 0x7F && c != '"' && c != '\\'

/-- A plain character stands for itself. -/
theorem escape_of_plain {c : Char} (h : isPlain c = true) : escape c = [c] := by
  simp only [isPlain, Bool.and_eq_true, decide_eq_true_eq, bne_iff_ne, ne_eq] at h
  obtain ⟨⟨⟨hlow, hhigh⟩, hquote⟩, hslash⟩ := h
  have hu : Unprintable.contains c = false := by
    rw [Unprintable.contains, Unprintable.contains_ascii _ (by omega)]
    simp only [decide_eq_false_iff_not]
    omega
  have he : Extender.contains c = false := Extender.contains_ascii _ (by omega)
  unfold escape
  split <;> simp_all

end GraphServer.Quoted
