import SumExpr.Text

/-! Strict UTF-8. A decoder is between two characters or inside one, where it knows which bytes may
follow: so overlong forms, surrogates and values above U+10FFFF are refused at the first byte that
gives them away. The position of a fault counts from the first byte of all data. So it does for a
reader that takes them in one portion, of 8192 bytes at most; that a reader of longer data counts
from the portion it is in is left out. -/

namespace SumExpr.Text.Utf8

structure ByteRange where
  low : UInt8
  high : UInt8
  deriving DecidableEq

def ByteRange.contains (r : ByteRange) (b : UInt8) : Bool := r.low ≤ b && b ≤ r.high

def continuation : ByteRange := ⟨0x80, 0xBF⟩

/-- What a first byte gives: the high bits of the code point and the ranges of the bytes owed. -/
structure Lead where
  bits : Nat
  owed : List ByteRange
  deriving DecidableEq

def lead? (b : UInt8) : Option Lead :=
  if b < 0x80 then some ⟨b.toNat, []⟩
  else if b < 0xC2 then none
  else if b < 0xE0 then some ⟨b.toNat - 0xC0, [continuation]⟩
  else if b = 0xE0 then some ⟨0, [⟨0xA0, 0xBF⟩, continuation]⟩
  else if b = 0xED then some ⟨0xD, [⟨0x80, 0x9F⟩, continuation]⟩
  else if b < 0xF0 then some ⟨b.toNat - 0xE0, [continuation, continuation]⟩
  else if b = 0xF0 then some ⟨0, [⟨0x90, 0xBF⟩, continuation, continuation]⟩
  else if b < 0xF4 then some ⟨b.toNat - 0xF0, [continuation, continuation, continuation]⟩
  else if b = 0xF4 then some ⟨4, [⟨0x80, 0x8F⟩, continuation, continuation]⟩
  else none

inductive Reason
  | invalidStart | invalidContinuation | unexpectedEnd
  deriving DecidableEq

def Reason.message : Reason → Text
  | .invalidStart => "invalid start byte".toList
  | .invalidContinuation => "invalid continuation byte".toList
  | .unexpectedEnd => "unexpected end of data".toList

/-- Where decoding failed: the bytes of the bad part, from `start` on, and why they are bad. -/
structure Fault where
  start : Nat
  first : UInt8
  others : List UInt8
  reason : Reason
  deriving DecidableEq

def Fault.message (f : Fault) : Text :=
  let place :=
    if f.others = [] then
      " byte 0x".toList ++ hex 2 f.first.toNat ++ " in position ".toList ++ ofNat f.start
    else
      " bytes in position ".toList ++ ofNat f.start ++ ['-'] ++ ofNat (f.start + f.others.length)
  "'utf-8' codec can't decode".toList ++ place ++ ": ".toList ++ f.reason.message

structure Begun where
  start : Nat
  first : UInt8
  others : List UInt8
  bits : Nat
  owed : ByteRange
  later : List ByteRange

def Begun.fault (p : Begun) (reason : Reason) : Fault := ⟨p.start, p.first, p.others, reason⟩

/-- The fault of an unfinished character at the end of the data. Such a character is held back and
judged on its own, so that its position counts from itself. -/
def Begun.lastFault (p : Begun) (reason : Reason) : Fault := { p.fault reason with start := 0 }

/-- Whether `b` is the last byte and makes the beginning of a surrogate with the one before it: that
is held back like a character of which the end may still come. -/
def Begun.heldBack (p : Begun) (b : UInt8) (rest : List UInt8) : Bool :=
  rest.isEmpty && p.first = 0xED && p.others.isEmpty && 0xA0 ≤ b && b ≤ 0xBF

/-- Decodes the bytes from position `pos` on. -/
def decodeFrom (pos : Nat) : Option Begun → List UInt8 → Except Fault Text
  | none, [] => .ok []
  | some p, [] => .error (p.lastFault .unexpectedEnd)
  | none, b :: rest =>
    match lead? b with
    | none => .error ⟨pos, b, [], .invalidStart⟩
    | some ⟨bits, []⟩ => (decodeFrom (pos + 1) none rest).map (Char.ofNat bits :: ·)
    | some ⟨bits, r :: later⟩ => decodeFrom (pos + 1) (some ⟨pos, b, [], bits, r, later⟩) rest
  | some p, b :: rest =>
    if p.owed.contains b then
      let bits := p.bits * 64 + b.toNat % 64
      match p.later with
      | [] => (decodeFrom (pos + 1) none rest).map (Char.ofNat bits :: ·)
      | r :: later =>
        decodeFrom (pos + 1) (some ⟨p.start, p.first, p.others ++ [b], bits, r, later⟩) rest
    else if p.heldBack b rest then .error (p.lastFault .invalidContinuation)
    else .error (p.fault .invalidContinuation)

def decode (bytes : List UInt8) : Except Fault Text := decodeFrom 0 none bytes

end SumExpr.Text.Utf8
