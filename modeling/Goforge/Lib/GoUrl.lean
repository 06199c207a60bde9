import Goforge.Lib.GoString

set_option autoImplicit false

namespace GoUrl

open GoString

def percent : UInt8 := byte '%'

-- url.unescape: none where a percent sign is not followed by two hexadecimal
-- digits. In a query a plus sign is a space.
def unescape (query : Bool) : Bytes → Option Bytes
  | [] => some []
  | b :: rest =>
    if b = percent then
      match rest with
      | high :: low :: rest =>
        match hexValue high, hexValue low with
        | some h, some l => (unescape query rest).map (UInt8.ofNat (16 * h + l) :: ·)
        | _, _ => none
      | _ => none
    else if query && decide (b = byte '+') then (unescape query rest).map (byte ' ' :: ·)
    else (unescape query rest).map (b :: ·)

abbrev Values := List (Bytes × Bytes)

def Values.get (values : Values) (key : Bytes) : List Bytes :=
  (values.filter (fun entry => entry.1 = key)).map Prod.snd

-- One part of a query between ampersands: the first error is kept, and a part
-- that has one adds nothing. A semicolon is an error of its own.
def parsePart (part : Bytes) (result : Values × Option Bytes) : Values × Option Bytes :=
  if part.contains (byte ';') then (result.1, some (ascii "invalid semicolon separator in query"))
  else if part = [] then result
  else
    let pair := (cut (byte '=') part).getD (part, [])
    match unescape true pair.1 with
    | none => (result.1, result.2.or (some (ascii "invalid URL escape")))
    | some key =>
      match unescape true pair.2 with
      | none => (result.1, result.2.or (some (ascii "invalid URL escape")))
      | some value => (result.1 ++ [(key, value)], result.2)

-- url.defaultMaxParams
def maxParams : Nat := 10000

-- url.ParseQuery: the ampersands are counted before anything is read.
def parseQuery (query : Bytes) : Except Bytes Values :=
  if maxParams < query.count (byte '&') + 1 then .error (ascii "number of URL query parameters exceeded limit")
  else match (split (byte '&') query).foldl (fun result part => parsePart part result) ([], none) with
  | (values, none) => .ok values
  | (_, some err) => .error err

end GoUrl
