import Goforge.Lib.Netip
import Goforge.Lib.Strconv

set_option autoImplicit false

namespace Goforge.RateLimit

open GoString Netip

def errInvalidForwardedChain : String := "rate limit: invalid forwarded address chain"

def maximumTrustedProxyPrefixes : Nat := 256

def maximumForwardedHeaderBytes : Nat := 8 * 2 ^ 10

def maximumForwardedHops : Nat := 64

def maximumForwardedParameters : Nat := 32

structure TrustedProxies where
  prefixes : List Prefix

inductive TrustedErr where
  | emptyEntry
  | invalidCIDR (encoded : Bytes)
  | tooMany
deriving DecidableEq, Repr

def unmapPrefix (net : Prefix) : Prefix :=
  if net.addr.is4In6 ∧ 96 ≤ net.bits then ⟨net.addr.unmap, net.bits - 96⟩ else net

def parseEntries (prefixes : List Prefix) : List Bytes → Except TrustedErr (List Prefix)
  | [] => .ok prefixes
  | entry :: rest =>
    let encoded := trimSpace entry
    if encoded = [] then .error .emptyEntry
    else
      match parsePrefix encoded with
      | none => .error (.invalidCIDR encoded)
      | some net =>
        if net.addr.zone ≠ [] then .error (.invalidCIDR encoded)
        else
          let prefixes := prefixes ++ [(unmapPrefix net).masked]
          if prefixes.length > maximumTrustedProxyPrefixes then .error .tooMany else parseEntries prefixes rest

def parseValues (prefixes : List Prefix) : List Bytes → Except TrustedErr (List Prefix)
  | [] => .ok prefixes
  | value :: rest =>
    if trimSpace value = [] then parseValues prefixes rest
    else
      match parseEntries prefixes (split (byte ',') value) with
      | .error err => .error err
      | .ok prefixes => parseValues prefixes rest

def parseTrustedProxies (values : List Bytes) : Except TrustedErr TrustedProxies :=
  (parseValues [] values).map TrustedProxies.mk

def TrustedProxies.contains (trusted : TrustedProxies) (address : Addr) : Bool :=
  if address.zone ≠ [] then false
  else trusted.prefixes.any (fun net =>
    decide (net.addr.unmap.bitLen = address.unmap.bitLen) && net.contains address.unmap)

structure Request where
  remoteAddr : Bytes
  header : String → List Bytes

def remoteAddress : Option Request → Bytes
  | none => ascii "unknown"
  | some request =>
    let address := trimSpace request.remoteAddr
    match splitHostPort address with
    | some (host, _) => if host ≠ [] then host else if address = [] then ascii "unknown" else address
    | none => if address = [] then ascii "unknown" else address

def headerValues (request : Option Request) (name : String) : List Bytes :=
  match request with
  | none => []
  | some request => request.header name

def parseDirectAddress (value : Bytes) : Option Addr :=
  match parseAddr (trimSpace value) with
  | some address => if address.zone ≠ [] then none else some address.unmap
  | none => none

def unzoned (parsed : Option Addr) : Option Addr :=
  parsed.bind (fun address => if address.zone = [] then some address.unmap else none)

def parseForwardedNode (text : Bytes) : Except String Addr :=
  let value := trimSpace text
  if value = [] ∨ equalFold value "unknown" ∨ value.head? = some (byte '_') then
    .error "forwarded node is not an IP address"
  else
    match unzoned (parseAddr value) with
    | some address => .ok address
    | none =>
      let bracketed := value.head? = some (byte '[') ∧ value.getLast? = some (byte ']')
      match if bracketed then unzoned (parseAddr (value.drop 1).dropLast) else none with
      | some address => .ok address
      | none =>
        match unzoned (parseAddrPort value) with
        | some address => .ok address
        | none =>
          match splitHostPort value with
          | some (host, port) =>
            match if port ≠ [] then unzoned (parseAddr host) else none with
            | some address => .ok address
            | none => .error "forwarded node is not a valid IP address"
          | none => .error "forwarded node is not a valid IP address"

def parseNodes : List Bytes → Except String (List Addr)
  | [] => .ok []
  | part :: rest =>
    match parseForwardedNode (trimSpace part) with
    | .error err => .error err
    | .ok address =>
      match parseNodes rest with
      | .error err => .error err
      | .ok chain => .ok (address :: chain)

def parseXForwardedFor (value : Bytes) : Except String (List Addr) :=
  if value.length > maximumForwardedHeaderBytes then .error "X-Forwarded-For exceeds size limit"
  else if (split (byte ',') value).length > maximumForwardedHops then .error "X-Forwarded-For exceeds hop limit"
  else parseNodes (split (byte ',') value)

def trimmedPart (part : Bytes) : Except String Bytes :=
  if trimSpace part = [] then .error "empty Forwarded element" else .ok (trimSpace part)

-- The loop of splitForwarded: the bytes since start and the parts found.
def splitForwardedFrom (separator : UInt8) (quoted escaped : Bool) (part : Bytes) (result : List Bytes) :
    Bytes → Except String (List Bytes)
  | [] =>
    if quoted ∨ escaped then .error "unterminated Forwarded quoted string"
    else (trimmedPart part).map (fun part => result ++ [part])
  | character :: rest =>
    if escaped then splitForwardedFrom separator quoted false (part ++ [character]) result rest
    else if quoted ∧ character = backslash then
      splitForwardedFrom separator quoted true (part ++ [character]) result rest
    else if character = dquote then
      splitForwardedFrom separator (!quoted) false (part ++ [character]) result rest
    else if !quoted ∧ character = separator then
      match trimmedPart part with
      | .error err => .error err
      | .ok part => splitForwardedFrom separator quoted false [] (result ++ [part]) rest
    else splitForwardedFrom separator quoted false (part ++ [character]) result rest

def splitForwarded (value : Bytes) (separator : UInt8) : Except String (List Bytes) :=
  splitForwardedFrom separator false false [] [] value

def hasInvalidForwardedRune (value : Bytes) : Bool := (runes value).any (fun r => decide (r < 0x20 ∨ 0x7e < r))

def tokenRune (r : Nat) : Bool :=
  decide (97 ≤ r ∧ r ≤ 122) || decide (65 ≤ r ∧ r ≤ 90) || decide (48 ≤ r ∧ r ≤ 57) ||
    (ascii "!#$%&'*+-.^_\x60|~").any (fun b => decide (b.toNat = r))

def isForwardedToken (value : Bytes) : Bool := !value.isEmpty && (runes value).all tokenRune

def decodeForwardedValue (value : Bytes) : Except String Bytes :=
  if value = [] then .error "empty Forwarded value"
  else if value.head? ≠ some dquote then
    if value.any (fun b => decide (b = dquote ∨ b = backslash ∨ b = byte ' ')) ∨ hasInvalidForwardedRune value then
      .error "invalid unquoted Forwarded value"
    else .ok value
  else
    match Strconv.unquote value with
    | none => .error "invalid Forwarded quoted value"
    | some decoded =>
      if hasInvalidForwardedRune decoded then .error "invalid Forwarded quoted value" else .ok decoded

-- The loop over the parameters of one element; found holds the address of its
-- for parameter.
def parseParameters (found : Option Addr) : List Bytes → Except String (Option Addr)
  | [] => .ok found
  | parameter :: rest =>
    match cut (byte '=') parameter with
    | none => .error "malformed Forwarded parameter"
    | some (before, after) =>
      let name := trimSpace before
      let encoded := trimSpace after
      if !isForwardedToken name then .error "malformed Forwarded parameter"
      else if !equalFold name "for" then
        match decodeForwardedValue encoded with
        | .error err => .error err
        | .ok _ => parseParameters found rest
      else if found.isSome then .error "duplicate Forwarded for parameter"
      else
        match decodeForwardedValue encoded with
        | .error err => .error err
        | .ok decoded =>
          match parseForwardedNode decoded with
          | .error err => .error err
          | .ok address => parseParameters (some address) rest

def parseElement (element : Bytes) : Except String Addr :=
  match splitForwarded element (byte ';') with
  | .error err => .error err
  | .ok parameters =>
    if parameters.length > maximumForwardedParameters then .error "Forwarded element exceeds parameter limit"
    else
      match parseParameters none parameters with
      | .error err => .error err
      | .ok none => .error "Forwarded element has no for parameter"
      | .ok (some address) => .ok address

def parseElements : List Bytes → Except String (List Addr)
  | [] => .ok []
  | element :: rest =>
    match parseElement element with
    | .error err => .error err
    | .ok address =>
      match parseElements rest with
      | .error err => .error err
      | .ok chain => .ok (address :: chain)

def parseForwarded (value : Bytes) : Except String (List Addr) :=
  if value.length > maximumForwardedHeaderBytes then .error "Forwarded exceeds size limit"
  else
    match splitForwarded value (byte ',') with
    | .error err => .error err
    | .ok elements =>
      if elements.length > maximumForwardedHops then .error "Forwarded exceeds hop limit" else parseElements elements

-- The loop from the right end of the chain, over what is left of it.
def walk (trusted : TrustedProxies) (current : Addr) : List Addr → Addr
  | [] => current
  | next :: left => if !trusted.contains current then current else walk trusted next.unmap left

def chainErr (detail : String) : Option String := some (errInvalidForwardedChain ++ ": " ++ detail)

def resolveClientAddress (trusted : TrustedProxies) (request : Option Request) : Bytes × Option String :=
  let directText := remoteAddress request
  match parseDirectAddress directText with
  | none => (directText, none)
  | some direct =>
    if !trusted.contains direct then (directText, none)
    else
      match headerValues request "Forwarded", headerValues request "X-Forwarded-For" with
      | [], [] => (direct.string, none)
      | _ :: _, _ :: _ => (directText, chainErr "both Forwarded and X-Forwarded-For are present")
      | _ :: _ :: _, [] => (directText, chainErr "repeated forwarding header")
      | [], _ :: _ :: _ => (directText, chainErr "repeated forwarding header")
      | [forwarded], [] =>
        if trimSpace forwarded = [] then (directText, chainErr "empty forwarding header")
        else
          match parseForwarded forwarded with
          | .error err => (directText, chainErr err)
          | .ok [] => (directText, chainErr "empty chain")
          | .ok chain => ((walk trusted direct.unmap chain.reverse).string, none)
      | [], [legacy] =>
        if trimSpace legacy = [] then (directText, chainErr "empty forwarding header")
        else
          match parseXForwardedFor legacy with
          | .error err => (directText, chainErr err)
          | .ok [] => (directText, chainErr "empty chain")
          | .ok chain => ((walk trusted direct.unmap chain.reverse).string, none)

def clientAddress (trusted : TrustedProxies) (request : Option Request) : Bytes :=
  match resolveClientAddress trusted request with
  | (_, some _) => remoteAddress request
  | (address, none) => address

end Goforge.RateLimit
