import ShapeMend.Json.Basic
import ShapeMend.Text.Source

/-!
# JSON pointers

A pointer is empty or a row of segments, each behind a slash.  In a segment `~1`
stands for a slash and `~0` for a tilde.  A segment names a member of an object
or gives a position in a list, as a numeral without leading zeros.
-/

namespace ShapeMend.Json

namespace Pointer

def unescape (digit replacement : Char) : List Char → List Char
  | [] => []
  | [c] => [c]
  | c :: d :: rest =>
    if c = '~' && d = digit then replacement :: unescape digit replacement rest
    else c :: unescape digit replacement (d :: rest)

/-- The text that a segment stands for.  Slashes are put in first, so that `~01`
stands for `~1`. -/
def decode (segment : List Char) : String :=
  String.ofList (unescape '0' '~' (unescape '1' '/' segment))

def segments? (pointer : String) : Option (List String) :=
  match pointer.toList with
  | [] => some []
  | '/' :: rest => some ((Text.pieces '/' rest).map decode)
  | _ => none

def position? (segment : String) : Option Nat :=
  let digits := segment.toList
  if digits.isEmpty || !digits.all Char.isDigit then none
  else if digits.head? = some '0' && digits.length ≠ 1 then none
  else
    let position := digits.foldl (fun n c => 10 * n + (c.toNat - '0'.toNat)) 0
    if position < Number.twoTo 64 then some position else none

def select : List String → Json → Option Json
  | [], value => some value
  | segment :: segments, .object members =>
    (Keyed.lookup segment members).bind (select segments)
  | segment :: segments, .array items =>
    ((position? segment).bind fun n => items[n]?).bind (select segments)
  | _ :: _, _ => none

end Pointer

def at? (value : Json) (pointer : String) : Option Json :=
  (Pointer.segments? pointer).bind fun segments => Pointer.select segments value

end ShapeMend.Json
