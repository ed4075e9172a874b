/-
**White space.**

The characters of the Unicode property `White_Space`, and cutting text at them.

* `isBlank_of_isWhitespace`: the table contains the ASCII blanks;
* `tokens`: the maximal runs of other characters, in order;
* `trim`: the text without its leading and trailing blanks.
-/

namespace PanelLink.Text

/-- Whether a character has the Unicode property `White_Space`. -/
def isBlank (char : Char) : Bool :=
  let code := char.toNat
  (0x09 ≤ code && code ≤ 0x0D) || code == 0x20 || code == 0x85 || code == 0xA0 || code == 0x1680 ||
    (0x2000 ≤ code && code ≤ 0x200A) || code == 0x2028 || code == 0x2029 || code == 0x202F ||
    code == 0x205F || code == 0x3000

/-- Blanks of the ASCII range are blanks of the table. -/
theorem isBlank_of_isWhitespace {char : Char} (white : char.isWhitespace = true) :
    isBlank char = true := by
  simp only [Char.isWhitespace, Bool.or_eq_true, decide_eq_true_eq] at white
  rcases white with ((rfl | rfl) | rfl) | rfl <;> decide

/-- The runs of text, the first one continuing the pending characters, which are held last first. -/
def tokensFrom (pending : List Char) : List Char → List (List Char)
  | [] => if pending.isEmpty then [] else [pending.reverse]
  | char :: rest =>
    if isBlank char then
      if pending.isEmpty then tokensFrom [] rest else pending.reverse :: tokensFrom [] rest
    else tokensFrom (char :: pending) rest

/-- The maximal runs of characters that are not blank. -/
def tokens (chars : List Char) : List (List Char) :=
  tokensFrom [] chars

def trimStart (chars : List Char) : List Char :=
  chars.dropWhile isBlank

def trim (chars : List Char) : List Char :=
  (trimStart (trimStart chars).reverse).reverse

end PanelLink.Text
