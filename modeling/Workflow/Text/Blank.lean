/-!
# Blank characters and words

Blanks are the characters of the Unicode property `White_Space`. Trimming drops them at both ends
of a text, and the words of a text are its maximal runs of other characters.
-/

namespace Workflow.Text

/-- A character of the Unicode property `White_Space`. -/
def isBlank (c : Char) : Bool :=
  let n := c.toNat
  (9 ≤ n && n ≤ 13) || n == 32 || n == 0x85 || n == 0xA0 || n == 0x1680 ||
    (0x2000 ≤ n && n ≤ 0x200A) || n == 0x2028 || n == 0x2029 || n == 0x202F || n == 0x205F ||
    n == 0x3000

/-- A text without any character that is not blank; the empty text is one. -/
def isBlankText (s : String) : Bool := s.toList.all isBlank

def trim (s : String) : String :=
  String.ofList ((s.toList.dropWhile isBlank).reverse.dropWhile isBlank).reverse

/-- The pieces between separators, empty ones included: `n` separators give `n + 1` pieces. -/
def pieces (sep : Char → Bool) : List Char → List (List Char)
  | [] => [[]]
  | c :: cs =>
    if sep c then [] :: pieces sep cs
    else match pieces sep cs with
      | [] => [[c]]
      | p :: ps => (c :: p) :: ps

/-- The pieces of a text between the occurrences of one character. -/
def splitAt (sep : Char) (s : String) : List String :=
  (pieces (· == sep) s.toList).map String.ofList

/-- The words of a text: its pieces between blanks, empty ones left out. -/
def words (s : String) : List String :=
  ((pieces isBlank s.toList).filter (fun p => !p.isEmpty)).map String.ofList

/-- What follows the last dot of a name, or all of it when there is none. -/
def lastSegment (s : String) : String :=
  String.ofList (((pieces (· == '.') s.toList).getLast?).getD [])

end Workflow.Text
