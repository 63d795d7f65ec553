/-!
UTF-8 on lists of bytes.  Reading goes one scalar at a time: a step takes either a whole encoded
scalar or the longest run of bytes that begins one and does not finish it.
-/

namespace Attest
namespace Text

def utf8 (s : String) : List UInt8 := s.toList.flatMap String.utf8EncodeChar

def byteLength (s : String) : Nat := s.utf8ByteSize

def isContinuation (b : UInt8) : Bool := 0x80 ≤ b && b < 0xC0

/-- Whether `c` may come second after the lead byte `b`.  Four leads allow fewer bytes, which
keeps out long forms, surrogates and code points past the last. -/
def mayFollow (b c : UInt8) : Bool :=
  if b == 0xE0 then 0xA0 ≤ c && c < 0xC0
  else if b == 0xED then 0x80 ≤ c && c < 0xA0
  else if b == 0xF0 then 0x90 ≤ c && c < 0xC0
  else if b == 0xF4 then 0x80 ≤ c && c < 0x90
  else isContinuation c

def low6 (b : UInt8) : Nat := b.toNat % 64

/-- Take one scalar that begins with `b`; `none` stands for bytes that encode none. -/
def utf8Step (b : UInt8) (rest : List UInt8) : Option Char × List UInt8 :=
  if b < 0x80 then (some (Char.ofNat b.toNat), rest)
  else if b < 0xC2 || 0xF5 ≤ b then (none, rest)
  else match rest with
    | [] => (none, [])
    | c :: rest₁ =>
      if !mayFollow b c then (none, rest)
      else if b < 0xE0 then (some (Char.ofNat ((b.toNat % 32) * 64 + low6 c)), rest₁)
      else match rest₁ with
        | [] => (none, [])
        | d :: rest₂ =>
          if !isContinuation d then (none, rest₁)
          else if b < 0xF0 then
            (some (Char.ofNat (((b.toNat % 16) * 64 + low6 c) * 64 + low6 d)), rest₂)
          else match rest₂ with
            | [] => (none, [])
            | e :: rest₃ =>
              if !isContinuation e then (none, rest₂)
              else
                (some (Char.ofNat ((((b.toNat % 8) * 64 + low6 c) * 64 + low6 d) * 64 + low6 e)),
                  rest₃)

theorem length_utf8Step_le (b : UInt8) (rest : List UInt8) :
    (utf8Step b rest).2.length ≤ rest.length := by
  unfold utf8Step
  repeat' split
  all_goals simp
  all_goals omega

/-- Scalars of a byte sequence, with `none` for bytes that encode none. -/
def utf8Scalars : List UInt8 → List (Option Char)
  | [] => []
  | b :: rest => (utf8Step b rest).1 :: utf8Scalars (utf8Step b rest).2
termination_by bs => bs.length
decreasing_by
  have := length_utf8Step_le b rest
  simp
  omega

def ofUtf8? (bs : List UInt8) : Option String :=
  ((utf8Scalars bs).mapM id).map String.ofList

/-- The text that the bytes encode, with U+FFFD wherever they encode none. -/
def ofUtf8Lossy (bs : List UInt8) : String :=
  String.ofList ((utf8Scalars bs).map (·.getD (Char.ofNat 0xFFFD)))

end Text
end Attest
