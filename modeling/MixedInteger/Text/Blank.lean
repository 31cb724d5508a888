/-!
# Blank characters

The white space that names are cleared of, that tokens are trimmed of, and that
separates the words of a solver's report.  All three use one class: the
characters with the Unicode property `White_Space`.
-/

namespace MixedInteger.Text

/-- The characters with the Unicode property `White_Space`. -/
def isBlank (c : Char) : Bool :=
  let n := c.toNat
  (9 ≤ n && n ≤ 13) || n == 0x20 || n == 0x85 || n == 0xA0 || n == 0x1680 ||
    (0x2000 ≤ n && n ≤ 0x200A) || n == 0x2028 || n == 0x2029 || n == 0x202F ||
    n == 0x205F || n == 0x3000

/-- Every blank removed, wherever it stands. -/
def unspaced (text : List Char) : List Char :=
  text.filter fun c => !isBlank c

/-- No blank is left by `unspaced`. -/
theorem isBlank_of_mem_unspaced {text : List Char} {c : Char} (present : c ∈ unspaced text) :
    isBlank c = false := by
  simpa [unspaced] using (List.mem_filter.mp present).2

/-- A text without blanks is left alone. -/
theorem unspaced_eq_self {text : List Char} (clear : ∀ c ∈ text, isBlank c = false) :
    unspaced text = text := by
  simpa [unspaced, List.filter_eq_self] using clear

/-- Blanks removed from both ends. -/
def trimmed (text : List Char) : List Char :=
  ((text.dropWhile isBlank).reverse.dropWhile isBlank).reverse

/-- The maximal runs of characters that are not blank, in order. -/
def words (text : List Char) : List (List Char) :=
  (text.splitOnP isBlank).filter fun word => !word.isEmpty

end MixedInteger.Text
