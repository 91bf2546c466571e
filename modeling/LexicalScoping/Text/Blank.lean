/-!
# Blank characters

White space between lexemes is the Unicode property White_Space: twenty-five code points, only six
of which are in ASCII. The property is closed under nothing and has no pattern, so it is a table of
ranges; `isBlank_of_isWhitespace` ties it to the class that the core library knows.
-/
namespace LexicalScoping.Text

/-- Whether `c` lies in one of the inclusive ranges, which must be in increasing order. -/
def inRanges (c : Char) : List (Nat × Nat) → Bool
  | [] => false
  | (low, high) :: rest =>
    if c.toNat < low then false else if c.toNat ≤ high then true else inRanges c rest

/-- The code points with the property White_Space. -/
def blankRanges : List (Nat × Nat) :=
  [(0x09, 0x0D), (0x20, 0x20), (0x85, 0x85), (0xA0, 0xA0), (0x1680, 0x1680), (0x2000, 0x200A),
    (0x2028, 0x2029), (0x202F, 0x202F), (0x205F, 0x205F), (0x3000, 0x3000)]

/-- White space anywhere in Unicode. -/
def isBlank (c : Char) : Bool := inRanges c blankRanges

/-- The text without the blanks at its end. -/
def trimBlankEnd (cs : List Char) : List Char := (cs.reverse.dropWhile isBlank).reverse

/-- The core library's white space is blank. -/
theorem isBlank_of_isWhitespace {c : Char} (h : c.isWhitespace = true) : isBlank c = true := by
  simp only [Char.isWhitespace, Bool.or_eq_true, decide_eq_true_eq] at h
  rcases h with ((rfl | rfl) | rfl) | rfl <;> decide

end LexicalScoping.Text
