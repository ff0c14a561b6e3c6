/-!
# Fingerprints of texts

The fingerprint of a text is SipHash with one round for each word and three at
the end, under the zero key, of the bytes of the text and a byte that no text
has.
-/

namespace ShapeMend.Text

structure Sip where
  a : UInt64
  b : UInt64
  c : UInt64
  d : UInt64

namespace Sip

def start : Sip where
  a := 0x736f6d6570736575
  b := 0x646f72616e646f6d
  c := 0x6c7967656e657261
  d := 0x7465646279746573

def rotate (word count : UInt64) : UInt64 :=
  word <<< count ||| word >>> (64 - count)

def round (s : Sip) : Sip :=
  let a := s.a + s.b
  let b := rotate s.b 13 ^^^ a
  let a := rotate a 32
  let c := s.c + s.d
  let d := rotate s.d 16 ^^^ c
  let a := a + d
  let d := rotate d 21 ^^^ a
  let c := c + b
  let b := rotate b 17 ^^^ c
  ⟨a, b, rotate c 32, d⟩

def absorb (s : Sip) (word : UInt64) : Sip :=
  let s := round { s with d := s.d ^^^ word }
  { s with a := s.a ^^^ word }

def word (bytes : List UInt8) : UInt64 :=
  bytes.foldr (fun byte rest => rest <<< 8 ||| byte.toUInt64) 0

def absorbBytes (length : UInt64) : Sip → List UInt8 → Sip
  | s, a :: b :: c :: d :: e :: f :: g :: h :: rest =>
    absorbBytes length (s.absorb (word [a, b, c, d, e, f, g, h])) rest
  | s, rest => s.absorb (length <<< 56 ||| word rest)

def finish (s : Sip) : UInt64 :=
  let s := round (round (round { s with c := s.c ^^^ 0xff }))
  s.a ^^^ s.b ^^^ s.c ^^^ s.d

def hash (bytes : List UInt8) : UInt64 :=
  (absorbBytes (.ofNat bytes.length) start bytes).finish

end Sip

def fingerprint (text : String) : UInt64 :=
  Sip.hash (text.toUTF8.data.toList ++ [0xff])

end ShapeMend.Text
