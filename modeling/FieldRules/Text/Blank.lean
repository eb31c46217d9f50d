/-!
# White space

Two sets of white space and the trimming of texts. `isBlank` is the wide one: the characters that
separate words, lines or paragraphs in any script, with the four ASCII information separators.
`isNumberBlank` is what may surround a written number.
-/

namespace FieldRules.Text

/-- White space of any script. -/
def isBlank (c : Char) : Bool :=
  let n := c.toNat
  (9 ≤ n && n ≤ 13) || (28 ≤ n && n ≤ 32) || n == 0x85 || n == 0xa0 || n == 0x1680
    || (0x2000 ≤ n && n ≤ 0x200a) || n == 0x2028 || n == 0x2029 || n == 0x202f || n == 0x205f
    || n == 0x3000

/-- White space of ASCII: space, tab, line feed, vertical tab, form feed, carriage return. -/
def isAsciiBlank (c : Char) : Bool := c == ' ' || (9 ≤ c.toNat && c.toNat ≤ 13)

/-- White space around a number: that of ASCII, and all white space outside ASCII. The information
separators are not among it. -/
def isNumberBlank (c : Char) : Bool := isAsciiBlank c || (128 ≤ c.toNat && isBlank c)

/-- The text `s` without the longest start and the longest end made of `p` characters. -/
def trimBy (p : Char → Bool) (s : List Char) : List Char :=
  ((s.dropWhile p).reverse.dropWhile p).reverse

/-- The text `s` without white space at either end. -/
def trim (s : List Char) : List Char := trimBy isBlank s

end FieldRules.Text
