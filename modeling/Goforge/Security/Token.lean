import Goforge.Lib.Base64

set_option autoImplicit false

namespace Goforge.Token

open GoString

def selectorBytes : Nat := 16

def secretBytes : Nat := 32

def digestBytes : Nat := 32

def selectorLength : Nat := 22

def secretLength : Nat := 43

def presentedLength : Nat := selectorLength + 1 + secretLength

structure Issued where
  selector : Bytes
  presented : Bytes
  digest : Bytes
deriving DecidableEq, Repr

structure Parsed where
  selector : Bytes
  digest : Bytes
  valid : Bool
deriving DecidableEq, Repr

section

variable (sum256 : Bytes → Bytes)

-- Issue on the entropy it reads.
def issue (material : Bytes) : Issued :=
  let selector := Base64.encode (material.take selectorBytes)
  let secret := Base64.encode (material.drop selectorBytes)
  ⟨selector, selector ++ [byte '.'] ++ secret, sum256 (material.drop selectorBytes)⟩

def decodeCanonical (encoded : Bytes) (length : Nat) : Option Bytes :=
  match Base64.decode encoded with
  | none => none
  | some decoded => if decoded.length = length ∧ Base64.encode decoded = encoded then some decoded else none

def parse (presented : Bytes) : Option Parsed :=
  if presented.length ≠ presentedLength ∨ presented[selectorLength]? ≠ some (byte '.') ∨
      presented.count (byte '.') ≠ 1 then none
  else
    let selectorText := presented.take selectorLength
    let secretText := presented.drop (selectorLength + 1)
    match decodeCanonical selectorText selectorBytes, decodeCanonical secretText secretBytes with
    | some _, some secret => some ⟨selectorText, sum256 secret, true⟩
    | _, _ => none

end

def expected (stored : Bytes) : Bytes := (stored ++ List.replicate digestBytes 0).take digestBytes

def matchDigest (stored : Bytes) (candidate : Parsed) : Bool :=
  decide (stored.length = digestBytes) && (candidate.valid && decide (expected stored = candidate.digest))

end Goforge.Token
