import Goforge.Lib.GoString

set_option autoImplicit false

namespace Netip

open GoString

inductive Addr where
  | v4 (value : BitVec 32)
  | v6 (value : BitVec 128) (zone : Bytes)
deriving DecidableEq, Repr

def Addr.zone : Addr → Bytes
  | .v4 _ => []
  | .v6 _ zone => zone

def Addr.bitLen : Addr → Nat
  | .v4 _ => 32
  | .v6 _ _ => 128

def Addr.is4In6 : Addr → Bool
  | .v4 _ => false
  | .v6 value _ => decide (value >>> 32 = 0xffff)

def Addr.unmap (addr : Addr) : Addr :=
  match addr with
  | .v6 value _ => if addr.is4In6 then .v4 (value.setWidth 32) else addr
  | .v4 _ => addr

-- parseIPv4Fields: val and digLen belong to the octet being read.
def parseIPv4Fields (val digLen : Nat) (fields : List Nat) : Bytes → Option (List Nat)
  | [] => if fields.length < 3 then none else some (fields ++ [val])
  | c :: rest =>
    if isDigit c then
      if digLen = 1 ∧ val = 0 then none
      else
        let next := val * 10 + (c.toNat - 48)
        if next > 255 then none else parseIPv4Fields next (digLen + 1) fields rest
    else if c = byte '.' then
      -- No digit was read exactly at the start and right after a dot.
      if digLen = 0 ∨ rest = [] then none
      else if fields.length = 3 then none
      else parseIPv4Fields 0 0 (fields ++ [val]) rest
    else none

def ofBytes (fields : List Nat) : Nat := fields.foldl (fun total field => total * 256 + field) 0

def parseIPv4 (text : Bytes) : Option Addr :=
  (parseIPv4Fields 0 0 [] text).map (fun fields => .v4 (BitVec.ofNat 32 (ofBytes fields)))

-- The hexadecimal digits of one group: their value, their number and the rest.
-- Four digits never pass the limit of 16 bits.
def hexGroup (acc off : Nat) : Bytes → Option (Nat × Nat × Bytes)
  | [] => some (acc, off, [])
  | c :: rest =>
    match hexValue c with
    | none => some (acc, off, c :: rest)
    | some digit => if off > 3 then none else hexGroup (acc * 16 + digit) (off + 1) rest

-- The loop of parseIPv6 over the groups left, with the bytes read so far and
-- the position of the ellipsis.
def parseGroups : Nat → Bytes → List Nat → Option Nat → Option (Bytes × List Nat × Option Nat)
  | 0, s, ip, ellipsis => some (s, ip, ellipsis)
  | left + 1, s, ip, ellipsis =>
    match hexGroup 0 0 s with
    | none => none
    | some (acc, off, rest) =>
      if off = 0 then none
      else if rest.head? = some (byte '.') then
        if ellipsis = none ∧ ip.length ≠ 12 then none
        else if ip.length + 4 > 16 then none
        else (parseIPv4Fields 0 0 [] s).map (fun fields => ([], ip ++ fields, ellipsis))
      else
        let ip := ip ++ [acc / 256, acc % 256]
        match rest with
        | [] => some ([], ip, ellipsis)
        | colon :: rest =>
          if colon ≠ byte ':' then none
          else
            match rest with
            | [] => none
            | c :: more =>
              if c = byte ':' then
                if ellipsis.isSome then none
                else if more = [] then some ([], ip, some ip.length)
                else parseGroups left more ip (some ip.length)
              else parseGroups left (c :: more) ip ellipsis

def expand (ip : List Nat) (ellipsis : Option Nat) : Option (List Nat) :=
  if ip.length < 16 then
    ellipsis.map (fun start => ip.take start ++ List.replicate (16 - ip.length) 0 ++ ip.drop start)
  else if ellipsis.isSome then none
  else some ip

def parseIPv6Groups (s : Bytes) : Option (BitVec 128) :=
  let leading := s.take 2 = ascii "::"
  let s := if leading then s.drop 2 else s
  if leading ∧ s = [] then some 0
  else
    match parseGroups 8 s [] (if leading then some 0 else none) with
    | some ([], ip, ellipsis) => (expand ip ellipsis).map (fun ip => BitVec.ofNat 128 (ofBytes ip))
    | _ => none

def parseIPv6 (text : Bytes) : Option Addr :=
  match cut (byte '%') text with
  | none => (parseIPv6Groups text).map (fun value => .v6 value [])
  | some (s, zone) => if zone = [] then none else (parseIPv6Groups s).map (fun value => .v6 value zone)

-- netip.ParseAddr: the first of these bytes decides the family.
def parseAddr (text : Bytes) : Option Addr :=
  match text.find? (fun c => c = byte '.' ∨ c = byte ':' ∨ c = byte '%') with
  | none => none
  | some c => if c = byte '.' then parseIPv4 text else if c = byte ':' then parseIPv6 text else none

def isV4 : Addr → Bool
  | .v4 _ => true
  | .v6 _ _ => false

-- netip.ParseAddrPort, without the port.
def parseAddrPort (text : Bytes) : Option Addr :=
  match cutLast (byte ':') text with
  | none => none
  | some (ip, port) =>
    if ip = [] ∨ port = [] then none
    else
      let bracketed := decide (ip.head? = some (byte '['))
      if bracketed ∧ (ip.length < 2 ∨ ip.getLast? ≠ some (byte ']')) then none
      else
        let ip := if bracketed then (ip.drop 1).dropLast else ip
        match parseUint 65535 port with
        | none => none
        | some _ =>
          match parseAddr ip with
          | none => none
          | some addr => if bracketed = isV4 addr then none else some addr

-- net.SplitHostPort
def splitHostPort (hostport : Bytes) : Option (Bytes × Bytes) :=
  match cutLast (byte ':') hostport with
  | none => none
  | some (front, port) =>
    if hostport.head? = some (byte '[') then
      match cut (byte ']') hostport with
      | none => none
      | some (before, after) =>
        -- The first closing bracket stands right before the last colon.
        if before.length + 1 ≠ front.length then none
        else if (hostport.drop 1).contains (byte '[') ∨ after.contains (byte ']') then none
        else some (before.drop 1, port)
    else if front.contains (byte ':') then none
    else if hostport.contains (byte '[') ∨ hostport.contains (byte ']') then none
    else some (front, port)

structure Prefix where
  addr : Addr
  bits : Nat
deriving DecidableEq, Repr

-- netip.ParsePrefix. The digits of the length have no sign and no leading zero.
def parsePrefix (text : Bytes) : Option Prefix :=
  match cutLast (byte '/') text with
  | none => none
  | some (ip, bits) =>
    match parseAddr ip with
    | none => none
    | some addr =>
      if addr.zone ≠ [] then none
      else if bits.length > 1 ∧ bits.head? = some (byte '0') then none
      else (parseUint addr.bitLen bits).map (fun bits => ⟨addr, bits⟩)

def Prefix.masked (net : Prefix) : Prefix :=
  match net.addr with
  | .v4 value => { net with addr := .v4 (value >>> (32 - net.bits) <<< (32 - net.bits)) }
  | .v6 value _ => { net with addr := .v6 (value >>> (128 - net.bits) <<< (128 - net.bits)) [] }

def Prefix.contains (net : Prefix) (addr : Addr) : Bool :=
  match net.addr, addr with
  | .v4 base, .v4 value => decide ((value ^^^ base) >>> (32 - net.bits) = 0)
  | .v6 base _, .v6 value zone => decide (zone = [] ∧ (value ^^^ base) >>> (128 - net.bits) = 0)
  | _, _ => false

def string4 (value : BitVec 32) : Bytes :=
  let octet (index : Nat) : Bytes := decimal (value.toNat / 256 ^ index % 256)
  octet 3 ++ ascii "." ++ octet 2 ++ ascii "." ++ octet 1 ++ ascii "." ++ octet 0

def groups (value : BitVec 128) : List Nat :=
  (List.range 8).map (fun index => value.toNat / 65536 ^ (7 - index) % 65536)

def hex (n : Nat) : Bytes := ascii (String.ofList (Nat.toDigits 16 n))

-- The first longest run of at least two zero groups, as its start and length.
def zeroRun (groups : List Nat) : Nat × Nat :=
  (List.range groups.length).foldl (fun best start =>
    let length := ((groups.drop start).takeWhile (fun group => group = 0)).length
    if 2 ≤ length ∧ best.2 < length then (start, length) else best) (255, 0)

def string6 (groups : List Nat) : Bytes :=
  let (start, length) := zeroRun groups
  let joined (part : List Nat) : Bytes := (part.map hex).intersperse (ascii ":") |>.flatten
  if length = 0 then joined groups
  else joined (groups.take start) ++ ascii "::" ++ joined (groups.drop (start + length))

def Addr.string : Addr → Bytes
  | .v4 value => string4 value
  | .v6 value zone =>
    (if (Addr.v6 value zone).is4In6 then ascii "::ffff:" ++ string4 (value.setWidth 32) else string6 (groups value)) ++
      (if zone = [] then [] else ascii "%" ++ zone)

theorem unmap_unmap (addr : Addr) : addr.unmap.unmap = addr.unmap := by
  cases addr with
  | v4 value => rfl
  | v6 value zone =>
    by_cases mapped : (Addr.v6 value zone).is4In6 = true
    · simp only [Addr.unmap, mapped, if_true]
    · simp only [Addr.unmap, mapped, Bool.false_eq_true, if_false]

example : parseAddr (ascii "::ffff:192.0.2.1") = some (.v6 0xffffc0000201 []) := by decide

example :
    (parseAddr (ascii "2001:db8:0:0:1:0:0:1")).map Addr.string = some (ascii "2001:db8::1:0:0:1") := by decide +kernel

example : parseAddrPort (ascii "[::1]:80") = some (.v6 1 []) := by decide

end Netip
