import Goforge.Lib.GoString

set_option autoImplicit false

namespace GoIdentifier

open GoString

-- The runes from 0x80 on for which unicode.IsLetter and unicode.IsDigit hold.
structure Alphabet where
  letter : Nat → Bool
  digit : Nat → Bool

def letterByte (b : UInt8) : Bool := within (byte 'a') (byte 'z') b || within (byte 'A') (byte 'Z') b || b = byte '_'

def nameStart (alphabet : Alphabet) (r : Nat) : Bool :=
  if r < 0x80 then letterByte (UInt8.ofNat r) else alphabet.letter r

def nameRune (alphabet : Alphabet) (r : Nat) : Bool :=
  nameStart alphabet r || if r < 0x80 then isDigit (UInt8.ofNat r) else alphabet.digit r

end GoIdentifier
