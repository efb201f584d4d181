/-!
# White space

The characters that separate words, fill margins and may pad a tag: those with the Unicode
property White_Space. `words` cuts a text at its white space.
-/

namespace TagTemplate

/-- A character is blank when it has the Unicode property White_Space. -/
def isBlank (c : Char) : Bool :=
  let n := c.toNat
  (0x09 ≤ n && n ≤ 0x0D) || n == 0x20 || n == 0x85 || n == 0xA0 || n == 0x1680 ||
  (0x2000 ≤ n && n ≤ 0x200A) || n == 0x2028 || n == 0x2029 || n == 0x202F || n == 0x205F ||
  n == 0x3000

example : [0x09, 0x0D, 0x20, 0x85, 0xA0, 0x1680, 0x2000, 0x200A, 0x2028, 0x2029, 0x202F, 0x205F,
    0x3000].all (fun n => isBlank (Char.ofNat n)) = true := by decide
example : [0x08, 0x0E, 0x1F, 0x21, 0x84, 0x86, 0x9F, 0xA1, 0x180E, 0x1FFF, 0x200B, 0x2027, 0x202A,
    0x2060, 0x3001, 0xFEFF].any (fun n => isBlank (Char.ofNat n)) = false := by decide

/-- A text without the white space at its ends. -/
def trimBlanks (cs : List Char) : List Char :=
  ((cs.dropWhile isBlank).reverse.dropWhile isBlank).reverse

example : trimBlanks " a b ".toList = "a b".toList := by decide

/-- The maximal runs of characters that are not blank, in order. -/
def words : List Char → List (List Char)
  | [] => []
  | c :: rest =>
    if isBlank c then words rest
    else if (rest.head?.map isBlank).getD true then [c] :: words rest
    else match words rest with
      | word :: more => (c :: word) :: more
      | [] => [[c]]

example : words "<%   %>".toList = ["<%".toList, "%>".toList] := by decide

end TagTemplate
