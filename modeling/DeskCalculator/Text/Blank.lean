/-! Blank characters and the words between them. -/
namespace DeskCalculator.Text

/-- The white space characters together with the four separators U+001C to U+001F. -/
def isBlank (c : Char) : Bool :=
  let n := c.toNat
  (0x09 ≤ n && n ≤ 0x0d) || (0x1c ≤ n && n ≤ 0x20) || n == 0x85 || n == 0xa0 || n == 0x1680 ||
    (0x2000 ≤ n && n ≤ 0x200a) || n == 0x2028 || n == 0x2029 || n == 0x202f || n == 0x205f ||
    n == 0x3000

def trimWith (blank : Char → Bool) (cs : List Char) : List Char :=
  ((cs.dropWhile blank).reverse.dropWhile blank).reverse

def trim (s : String) : String := .ofList (trimWith isBlank s.toList)

/-- The word that starts the text, empty if a blank or nothing does, and the words after it. -/
def cut : List Char → List Char × List (List Char)
  | [] => ([], [])
  | c :: rest =>
    let (word, later) := cut rest
    if isBlank c then ([], if word = [] then later else word :: later) else (c :: word, later)

def wordsOf (cs : List Char) : List (List Char) :=
  let (word, later) := cut cs
  if word = [] then later else word :: later

/-- The longest pieces without a blank, in order; there are no empty ones. -/
def words (s : String) : List String := (wordsOf s.toList).map .ofList

/-- The words with one space between neighbours. -/
def spaced : List String → String
  | [] => ""
  | [w] => w
  | w :: rest => w ++ " " ++ spaced rest

end DeskCalculator.Text
