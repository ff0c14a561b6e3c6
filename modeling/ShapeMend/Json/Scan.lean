import ShapeMend.Json.Basic
import ShapeMend.Json.ReadError
import ShapeMend.Number.Magnitude

/-!
# Scanning JSON texts

A JSON text is a list of bytes, of which the scan keeps what lies ahead and
where it stands.  This module reads the leaves: white space, words, strings and
numbers.
-/

namespace ShapeMend.Json

open ShapeMend.Number

structure Mark where
  ahead : List UInt8
  place : Place

namespace Mark

def start (bytes : List UInt8) : Mark := ⟨bytes, ⟨1, 0⟩⟩

def stepPlace (place : Place) (byte : UInt8) : Place :=
  if byte = 0x0A then ⟨place.line + 1, 0⟩ else ⟨place.line, place.column + 1⟩

def nextPlace (mark : Mark) : Place :=
  match mark.ahead with
  | [] => mark.place
  | byte :: _ => stepPlace mark.place byte

def advance (mark : Mark) : Mark :=
  match mark.ahead with
  | [] => mark
  | byte :: rest => ⟨rest, stepPlace mark.place byte⟩

end Mark

/-- A failure on the way.  What is wrong with a value as a whole has no place
yet: the list or object around the value is closed first, if it can be. -/
structure Failure where
  cause : ReadCause
  path : Path
  standing : Place ⊕ Mark

abbrev Scan := StateT Mark (Except Failure)

namespace Scan

def peek : Scan (Option UInt8) := return (← get).ahead.head?

def advance : Scan Unit := modify Mark.advance

def failHere {α : Type} (path : Path) (cause : ReadCause) : Scan α := do
  throw ⟨cause, path, .inl (← get).place⟩

def failNext {α : Type} (path : Path) (cause : ReadCause) : Scan α := do
  throw ⟨cause, path, .inl (← get).nextPlace⟩

def failWhole {α : Type} (path : Path) (cause : ReadCause) : Scan α := do
  throw ⟨cause, path, .inr (← get)⟩

def skip : Nat → Scan Unit
  | 0 => return ()
  | n + 1 => do advance; skip n

def remaining : Scan Nat := return (← get).ahead.length

def next : Scan (Option UInt8) := do
  let byte ← peek
  advance
  return byte

def isSpace (byte : UInt8) : Bool :=
  byte = 0x20 || byte = 0x0A || byte = 0x09 || byte = 0x0D

def isDigit (byte : UInt8) : Bool := 0x30 ≤ byte && byte ≤ 0x39

def takeWhile (test : UInt8 → Bool) : Scan (List UInt8) := do
  let mark ← get
  let taken := mark.ahead.takeWhile test
  set (⟨mark.ahead.dropWhile test,
    taken.foldl Mark.stepPlace mark.place⟩ : Mark)
  return taken

def peekToken : Scan (Option UInt8) := do
  discard (takeWhile isSpace)
  peek

def word (path : Path) : List UInt8 → Scan Unit
  | [] => return ()
  | expected :: rest => do
    match ← next with
    | none => failHere path .endInValue
    | some byte =>
      if byte = expected then word path rest else failHere path .missingWord

def ascii (s : String) : List UInt8 := s.toList.map fun c => c.toNat.toUInt8

/-! ## Strings -/

def hexValue? (byte : UInt8) : Option Nat :=
  let n := byte.toNat
  if 0x30 ≤ n ∧ n ≤ 0x39 then some (n - 0x30)
  else if 0x61 ≤ n ∧ n ≤ 0x66 then some (n - 0x61 + 10)
  else if 0x41 ≤ n ∧ n ≤ 0x46 then some (n - 0x41 + 10)
  else none

def code (path : Path) : Scan Nat := do
  let digits := (← get).ahead.take 4
  if digits.length < 4 then
    discard (takeWhile fun _ => true)
    failHere path .endInString
  else
    skip 4
    match digits.foldlM (fun n byte => (hexValue? byte).map (n * 16 + ·)) 0 with
    | some n => return n
    | none => failHere path .escape

def utf8 (n : Nat) : List UInt8 :=
  (String.singleton (Char.ofNat n)).toUTF8.toList

def pairByte (path : Path) (expected : UInt8) : Scan Unit := do
  match ← next with
  | none => failHere path .endInString
  | some byte => unless byte = expected do failHere path .unfinishedSurrogate

def codeEscape (path : Path) : Scan (List UInt8) := do
  let lead ← code path
  if 0xDC00 ≤ lead ∧ lead ≤ 0xDFFF then failHere path .loneSurrogate
  else if 0xD800 ≤ lead ∧ lead ≤ 0xDBFF then
    pairByte path 0x5C
    pairByte path 0x75
    let trail ← code path
    if 0xDC00 ≤ trail ∧ trail ≤ 0xDFFF then
      return utf8 (0x10000 + (lead - 0xD800) * 0x400 + (trail - 0xDC00))
    else failHere path .loneSurrogate
  else return utf8 lead

def shortEscape? (byte : UInt8) : Option UInt8 :=
  if byte = 0x22 ∨ byte = 0x5C ∨ byte = 0x2F then some byte
  else if byte = 0x62 then some 0x08
  else if byte = 0x66 then some 0x0C
  else if byte = 0x6E then some 0x0A
  else if byte = 0x72 then some 0x0D
  else if byte = 0x74 then some 0x09
  else none

/-- The bytes of the rest of a string, up to its closing quote.  The bound is
the number of its pieces at most. -/
def stringBytes (path : Path) : Nat → Scan (List UInt8)
  | 0 => failHere path .endInString
  | bound + 1 => do
    let plain ← takeWhile fun byte => byte ≠ 0x22 && byte ≠ 0x5C && 0x20 ≤ byte
    match ← peek with
    | none => failHere path .endInString
    | some byte =>
      if byte = 0x22 then return plain
      else
        advance
        if byte = 0x5C then
          match ← next with
          | none => failHere path .endInString
          | some mark =>
            let decoded ←
              if mark = 0x75 then codeEscape path
              else match shortEscape? mark with
                | some byte => pure [byte]
                | none => failHere path .escape
            return plain ++ decoded ++ (← stringBytes path bound)
        else failHere path .controlCharacter

def string (path : Path) : Scan String := do
  let bytes ← stringBytes path ((← remaining) + 1)
  match String.fromUTF8? (ByteArray.mk bytes.toArray) with
  | some value =>
    advance
    return value
  | none => failHere path .encoding

/-! ## Numbers

Digits are collected as long as they fit sixty-four bits; digits beyond that
only move the exponent.  The collected number is then scaled in steps that are
rounded one by one. -/

def maxWord : Nat := twoTo 64 - 1

def digitValue (byte : UInt8) : Nat := byte.toNat - 0x30

def appendDigits (significand : Nat) : List UInt8 → Nat × Nat
  | [] => (significand, 0)
  | digit :: digits =>
    let longer := significand * 10 + digitValue digit
    if maxWord < longer then (significand, digits.length + 1)
    else appendDigits longer digits

def powerOfTen (n : Nat) : Magnitude := .ofNat (tenTo n)

/-- A number below one scaled down in steps of 308 places, until what is left of
the exponent is less. -/
def scaleDown : Nat → Magnitude → Nat → Magnitude
  | 0, value, _ => value
  | bound + 1, value, places =>
    if places ≤ 308 then value.div (powerOfTen places)
    else if value.bits = 0 then value
    else scaleDown bound (value.div (powerOfTen 308)) (places - 308)

def scale? (significand : Nat) (exponent : Int) : Option Magnitude :=
  let value := Magnitude.ofNat significand
  if 0 ≤ exponent then
    if exponent ≤ 308 then
      let scaled := value.mul (powerOfTen exponent.toNat)
      if scaled.isInfinite then none else some scaled
    else if significand = 0 then some value
    else none
  else some (scaleDown 10 value exponent.natAbs)

def real (path : Path) (negative : Bool) (significand : Nat) (exponent : Int) :
    Scan JsonNumber := do
  match scale? significand exponent with
  | some magnitude => return .real ⟨negative, magnitude⟩
  | none => failHere path .numberRange

def maxExponent : Nat := twoTo 31 - 1

/-- The exponent that the digits write, unless it passes the limit, and the
digits read until then. -/
def exponentOf? (digits : List UInt8) : Option Nat :=
  let value := digits.foldl (fun n digit => n * 10 + digitValue digit) 0
  if value ≤ maxExponent then some value else none

def digitsToLimit (value : Nat) : List UInt8 → Nat
  | [] => 0
  | digit :: digits =>
    let longer := value * 10 + digitValue digit
    if maxExponent < longer then 1 else digitsToLimit longer digits + 1

def exponentPart (path : Path) (negative : Bool) (significand : Nat)
    (start : Int) : Scan JsonNumber := do
  advance
  let sign ← peek
  let down := sign = some 0x2D
  if down || sign = some 0x2B then advance
  match ← peek with
  | none => failHere path .endInValue
  | some byte =>
    if !isDigit byte then
      advance
      failHere path .number
    else
      let ahead := (← get).ahead
      let digits := ahead.takeWhile isDigit
      match exponentOf? digits with
      | some exponent =>
        skip digits.length
        real path negative significand
          (if down then start - exponent else start + exponent)
      | none =>
        if significand ≠ 0 && !down then
          skip (digitsToLimit 0 digits)
          failHere path .numberRange
        else
          skip digits.length
          return .real ⟨negative, .zero⟩

def isExponentMark (byte : Option UInt8) : Bool :=
  byte = some 0x65 || byte = some 0x45

def fractionPart (path : Path) (negative : Bool) (significand skipped : Nat) :
    Scan JsonNumber := do
  advance
  let digits ← takeWhile isDigit
  if digits.isEmpty then
    if (← peek).isSome then failNext path .number else failNext path .endInValue
  else
    let (significand, left) := appendDigits significand digits
    let exponent : Int := skipped - (digits.length - left : Nat)
    if isExponentMark (← peek) then
      exponentPart path negative significand exponent
    else real path negative significand exponent

def integer (negative : Bool) (significand : Nat) : JsonNumber :=
  if !negative then .integer significand
  else if significand = 0 ∨
    twoTo 63 < significand then .real ⟨true, .ofNat significand⟩
  else .integer (-significand)

def number (path : Path) (negative : Bool) : Scan JsonNumber := do
  match ← next with
  | none => failHere path .endInValue
  | some first =>
    if !isDigit first then failHere path .number
    else
      let digits ← if first = 0x30 then pure [] else takeWhile isDigit
      let after ← peek
      if first = 0x30 && after.any isDigit then failNext path .number
      else
        let (significand, left) := appendDigits (digitValue first) digits
        if after = some 0x2E then fractionPart path negative significand left
        else if isExponentMark after then
          exponentPart path negative significand left
        else if left = 0 then return integer negative significand
        else real path negative significand left

end Scan

end ShapeMend.Json
