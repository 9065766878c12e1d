import SmallLisp.Text.Quoted

/-!
# `SmallLisp.Text.Utf8`: texts as octets

`encode` writes characters as UTF-8, `decode` reads them and names the first sequence that is not UTF-8.
A sequence is refused at its first octet if that starts none, and otherwise together with the
octets after it that could still belong to it. `unencodable?` names the first lone surrogates of a
text: there are no octets for them.
-/

namespace SmallLisp.Text.Utf8

/-- The octets of a text. -/
def encode (s : List Char) : List UInt8 := s.flatMap String.utf8EncodeChar

/-- Surrogates that stand alone: the place of the first, the first, and how many there are one after
the other. -/
structure Unencodable where
  start : Nat
  first : CodePoint
  length : Nat
  deriving DecidableEq, Repr

/-- The fault in words. -/
def Unencodable.message (fault : Unencodable) : String :=
  let sequence :=
    if fault.length = 1 then
      s!"character '{String.ofList (escape fault.first.toNat)}' in position {fault.start}"
    else s!"characters in position {fault.start}-{fault.start + fault.length - 1}"
  s!"'utf-8' codec can't encode {sequence}: surrogates not allowed"

/-- The first lone surrogates of a text. -/
def unencodable? (s : Text) : Option Unencodable :=
  match s.toList.dropWhile CodePoint.isChar with
  | [] => none
  | first :: rest =>
    some ⟨(s.toList.takeWhile CodePoint.isChar).length, first,
      (rest.takeWhile fun c => !c.isChar).length + 1⟩

/-- Why a sequence of octets spells no character. -/
inductive Reason
  | invalidStart
  | invalidContinuation
  | unexpectedEnd
  deriving DecidableEq, Repr

/-- The reason in words. -/
def Reason.text : Reason → String
  | .invalidStart => "invalid start byte"
  | .invalidContinuation => "invalid continuation byte"
  | .unexpectedEnd => "unexpected end of data"

/-- The first bad sequence: the offset and value of its first octet, and its length. -/
structure Malformed where
  start : Nat
  octet : UInt8
  length : Nat
  reason : Reason
  deriving DecidableEq, Repr

/-- The fault in words. -/
def Malformed.message (fault : Malformed) : String :=
  let sequence :=
    if fault.length = 1 then
      s!"byte 0x{String.ofList (hex 2 fault.octet.toNat)} in position {fault.start}"
    else s!"bytes in position {fault.start}-{fault.start + fault.length - 1}"
  s!"'utf-8' codec can't decode {sequence}: {fault.reason.text}"

/-- What a first octet above `0x7F` announces: the bits it carries, how many octets follow, and
which second octets can follow. -/
structure Lead where
  bits : Nat
  more : Nat
  least : Nat
  greatest : Nat

/-- The announcement of a first octet above `0x7F`; none for an octet that starts no character. -/
def lead? (octet : UInt8) : Option Lead :=
  let n := octet.toNat
  if n < 0xC2 then none
  else if n < 0xE0 then some ⟨n - 0xC0, 1, 0x80, 0xBF⟩
  else if n < 0xF0 then
    some ⟨n - 0xE0, 2, if n = 0xE0 then 0xA0 else 0x80, if n = 0xED then 0x9F else 0xBF⟩
  else if n < 0xF5 then
    some ⟨n - 0xF0, 3, if n = 0xF0 then 0x90 else 0x80, if n = 0xF4 then 0x8F else 0xBF⟩
  else none

/-- Can the octet stand at the third or fourth place of a sequence? -/
def isContinuation (octet : UInt8) : Bool := 0x80 ≤ octet.toNat && octet.toNat < 0xC0

/-- The bits before `octet` followed by its own six. -/
def addBits (bits : Nat) (octet : UInt8) : Nat := 64 * bits + (octet.toNat - 0x80)

/-- Reads octets that begin at offset `start`. -/
def decodeFrom (start : Nat) : List UInt8 → Except Malformed (List Char)
  | [] => .ok []
  | b₀ :: rest₀ =>
    let bad := fun length reason => Except.error ⟨start, b₀, length, reason⟩
    if b₀.toNat < 0x80 then
      (decodeFrom (start + 1) rest₀).map (Char.ofNat b₀.toNat :: ·)
    else
      match lead? b₀ with
      | none => bad 1 .invalidStart
      | some lead =>
        match rest₀ with
        | [] => bad 1 .unexpectedEnd
        | b₁ :: rest₁ =>
          if b₁.toNat < lead.least || lead.greatest < b₁.toNat then bad 1 .invalidContinuation
          else if lead.more = 1 then
            (decodeFrom (start + 2) rest₁).map (Char.ofNat (addBits lead.bits b₁) :: ·)
          else
            match rest₁ with
            | [] => bad 2 .unexpectedEnd
            | b₂ :: rest₂ =>
              if !isContinuation b₂ then bad 2 .invalidContinuation
              else if lead.more = 2 then
                (decodeFrom (start + 3) rest₂).map
                  (Char.ofNat (addBits (addBits lead.bits b₁) b₂) :: ·)
              else
                match rest₂ with
                | [] => bad 3 .unexpectedEnd
                | b₃ :: rest₃ =>
                  if !isContinuation b₃ then bad 3 .invalidContinuation
                  else
                    (decodeFrom (start + 4) rest₃).map
                      (Char.ofNat (addBits (addBits (addBits lead.bits b₁) b₂) b₃) :: ·)

/-- Reads a text. -/
def decode (octets : List UInt8) : Except Malformed (List Char) := decodeFrom 0 octets

end SmallLisp.Text.Utf8
