import CatalogPress.Text.Quoted

/-!
Text as bytes. Characters take one to four bytes of UTF-8; overlong forms, surrogates and code
points above 0x10ffff are refused by the ranges of the first two bytes. Where the bytes cannot be
read, the fault says which stretch of bytes is to blame: the longest start of a character that is
there. Surrogates have no bytes, except that in names of files some of them stand for single ones.
-/
namespace CatalogPress.Utf8

inductive FaultKind where
  | invalidStart
  | invalidContinuation
  | unexpectedEnd
deriving DecidableEq, Inhabited, Repr

structure Fault where
  kind : FaultKind
  position : Nat
  length : Nat
  first : UInt8
deriving DecidableEq, Inhabited, Repr

def isTail (b : UInt8) : Bool :=
  0x80 ≤ b && b ≤ 0xbf

def maySecond (a b : UInt8) : Bool :=
  isTail b &&
    (if a = 0xe0 then 0xa0 ≤ b
    else if a = 0xed then b ≤ 0x9f
    else if a = 0xf0 then 0x90 ≤ b
    else if a = 0xf4 then b ≤ 0x8f
    else true)

def tailBits (b : UInt8) : Nat :=
  b.toNat % 64

def decodeFrom (position : Nat) : List UInt8 → Except Fault (List Char)
  | [] => .ok []
  | a :: rest =>
    if a < 0x80 then
      (decodeFrom (position + 1) rest).map (Char.ofNat a.toNat :: ·)
    else if a < 0xc2 ∨ 0xf4 < a then .error ⟨.invalidStart, position, 1, a⟩
    else
      match rest with
      | [] => .error ⟨.unexpectedEnd, position, 1, a⟩
      | b :: rest =>
        if !maySecond a b then .error ⟨.invalidContinuation, position, 1, a⟩
        else if a < 0xe0 then
          (decodeFrom (position + 2) rest).map
            (Char.ofNat (a.toNat % 32 * 64 + tailBits b) :: ·)
        else
          match rest with
          | [] => .error ⟨.unexpectedEnd, position, 2, a⟩
          | c :: rest =>
            if !isTail c then .error ⟨.invalidContinuation, position, 2, a⟩
            else if a < 0xf0 then
              (decodeFrom (position + 3) rest).map
                (Char.ofNat ((a.toNat % 16 * 64 + tailBits b) * 64 + tailBits c) :: ·)
            else
              match rest with
              | [] => .error ⟨.unexpectedEnd, position, 3, a⟩
              | d :: rest =>
                if !isTail d then .error ⟨.invalidContinuation, position, 3, a⟩
                else
                  (decodeFrom (position + 4) rest).map
                    (Char.ofNat
                      (((a.toNat % 8 * 64 + tailBits b) * 64 + tailBits c) * 64 + tailBits d) :: ·)

def decode (bytes : ByteArray) : Except Fault (List Char) :=
  decodeFrom 0 bytes.data.toList

def hexByte (b : UInt8) : String :=
  String.ofList ['0', 'x', Nat.digitChar (b.toNat / 16), Nat.digitChar (b.toNat % 16)]

def FaultKind.message : FaultKind → String
  | invalidStart => "invalid start byte"
  | invalidContinuation => "invalid continuation byte"
  | unexpectedEnd => "unexpected end of data"

def Fault.message (fault : Fault) : String :=
  let place :=
    if fault.length = 1 then
      "byte " ++ hexByte fault.first ++ " in position " ++ toString fault.position
    else
      "bytes in position " ++ toString fault.position ++ "-" ++
        toString (fault.position + fault.length - 1)
  "'utf-8' codec can't decode " ++ place ++ ": " ++ fault.kind.message

/-- Surrogates that have no bytes: where the first of them stands, and how many follow each
other. -/
structure Unencodable where
  position : Nat
  length : Nat
  first : CodePoint
deriving DecidableEq, Inhabited, Repr

def Unencodable.message (fault : Unencodable) : String :=
  let place :=
    if fault.length = 1 then
      "character '" ++ String.ofList (Text.escapeShort fault.first.value) ++ "' in position " ++
        toString fault.position
    else
      "characters in position " ++ toString fault.position ++ "-" ++
        toString (fault.position + fault.length - 1)
  "'utf-8' codec can't encode " ++ place ++ ": surrogates not allowed"

def unencodable? (bytes? : CodePoint → Option (List UInt8)) (position : Nat) :
    List CodePoint → Option Unencodable
  | [] => none
  | point :: rest =>
    if (bytes? point).isSome then unencodable? bytes? (position + 1) rest
    else some ⟨position, (rest.takeWhile (·.isSurrogate)).length + 1, point⟩

def bytesBy (bytes? : CodePoint → Option (List UInt8)) (text : Text) : List UInt8 :=
  text.points.flatMap fun point => (bytes? point).getD []

def encodeBy (bytes? : CodePoint → Option (List UInt8)) (text : Text) :
    Except Unencodable (List UInt8) :=
  match unencodable? bytes? 0 text.points with
  | some fault => .error fault
  | none => .ok (bytesBy bytes? text)

def charBytes? (point : CodePoint) : Option (List UInt8) :=
  point.char?.map String.utf8EncodeChar

/-- In names of files the surrogates U+DC80 to U+DCFF stand for the bytes 0x80 to 0xff. -/
def nameBytes? (point : CodePoint) : Option (List UInt8) :=
  if 0xdc80 ≤ point.value ∧ point.value ≤ 0xdcff then some [UInt8.ofNat (point.value - 0xdc00)]
  else charBytes? point

def encode (text : Text) : Except Unencodable ByteArray :=
  (encodeBy charBytes? text).map fun bytes => ⟨bytes.toArray⟩

def encodeName (text : Text) : Except Unencodable (List UInt8) :=
  encodeBy nameBytes? text

def nameBytes (text : Text) : List UInt8 :=
  bytesBy nameBytes? text

end CatalogPress.Utf8
