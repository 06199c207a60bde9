import Mathlib.Data.List.Forall2
import Goforge.RateLimit.Proxy
import Goforge.Lib.QuotedText

set_option autoImplicit false

namespace Goforge.RateLimit

open GoString Netip QuotedText

def splitMode (quoted escaped : Bool) : Mode := if quoted then (if escaped then .escaped else .inside) else .outside

variable {separator : UInt8}

theorem split_from_divides (unquoted : separator ≠ dquote) (text : Bytes) :
    ∀ (quoted escaped : Bool) (part : Bytes)
    (result parts : List Bytes), (escaped = true → quoted = true) → scan part = splitMode quoted escaped →
    Solid separator part → splitForwardedFrom separator quoted escaped part result text = .ok parts →
    ∃ texts, Divided separator (part ++ text) texts ∧ parts = result ++ texts.map trimSpace := by
  induction text with
  | nil =>
    intro quoted escaped part result parts _ stands solid done
    rw [splitForwardedFrom] at done
    split at done
    · cases done
    rename_i closed
    simp only [not_or, Bool.not_eq_true] at closed
    obtain ⟨rfl, rfl⟩ := closed
    rw [trimmedPart] at done
    split at done
    · cases done
    cases done
    refine ⟨[part], ⟨List.cons_ne_nil _ _, ?_, ?_, ?_⟩, rfl⟩
    · rw [List.append_nil, join_cons, if_pos rfl, List.append_nil]
    · intro other member
      rw [List.mem_singleton.mp member]
      exact stands
    · intro other member
      rw [List.mem_singleton.mp member]
      exact solid
  | cons b rest ih =>
    intro quoted escaped part result parts nested stands solid done
    have grow : ∀ (quoted' escaped' : Bool), (escaped' = true → quoted' = true) →
        (splitMode quoted escaped).next b = splitMode quoted' escaped' →
        (b = separator → splitMode quoted escaped ≠ .outside) →
        splitForwardedFrom separator quoted' escaped' (part ++ [b]) result rest = .ok parts →
        ∃ texts, Divided separator (part ++ b :: rest) texts ∧ parts = result ++ texts.map trimSpace := by
      intro quoted' escaped' inner moved kept more
      have later := ih quoted' escaped' (part ++ [b]) result parts inner (by rw [scan_snoc, stands, moved])
        (solid_snoc solid (fun same => stands ▸ kept same)) more
      rwa [List.append_assoc, List.singleton_append] at later
    rw [splitForwardedFrom] at done
    cases escaped with
    | true =>
      obtain rfl := nested rfl
      exact grow true false (fun _ => rfl) rfl (fun _ => by decide) done
    | false =>
      rw [if_neg Bool.false_ne_true] at done
      by_cases slash : quoted = true ∧ b = backslash
      · obtain ⟨rfl, rfl⟩ := slash
        exact grow true true (fun _ => rfl) rfl (fun _ => by decide) done
      rw [if_neg slash] at done
      by_cases quote : b = dquote
      · subst quote
        refine grow (!quoted) false (fun impossible => by cases impossible) ?_
          (fun same => absurd same.symm unquoted) done
        cases quoted <;> rfl
      rw [if_neg quote] at done
      by_cases ends : (!quoted) = true ∧ b = separator
      · obtain ⟨outside, rfl⟩ := ends
        rw [Bool.not_eq_true'] at outside
        subst outside
        rw [if_pos ⟨rfl, rfl⟩, trimmedPart] at done
        split at done
        · cases done
        rename_i trimmed found
        split at found
        · cases found
        cases found
        obtain ⟨texts, divided, rfl⟩ := ih false false [] _ parts (fun impossible => by cases impossible) rfl
          (solid_nil b) done
        exact ⟨part :: texts, divided_more stands solid divided, by simp⟩
      · rw [if_neg ends] at done
        refine grow quoted false (fun impossible => by cases impossible) ?_ ?_ done
        · cases quoted with
          | false => exact if_neg quote
          | true => exact (if_neg (fun same => slash ⟨rfl, same⟩)).trans (if_neg quote)
        · intro same
          cases quoted with
          | false => exact absurd ⟨rfl, same⟩ ends
          | true => decide

variable {value : Bytes} {address : Addr}

theorem split_divides (unquoted : separator ≠ dquote) {parts : List Bytes}
    (done : splitForwarded value separator = .ok parts) :
    ∃ texts, Divided separator value texts ∧ parts = texts.map trimSpace := by
  obtain ⟨texts, divided, shape⟩ := split_from_divides unquoted value false false [] [] parts
    (fun impossible => by cases impossible) rfl (solid_nil separator) done
  exact ⟨texts, divided, shape⟩

def trimmedPair (text : Bytes) : Option (Bytes × Bytes) :=
  (cut (byte '=') text).map (fun halves => (trimSpace halves.1, trimSpace halves.2))

def named (pair : Bytes × Bytes) : Bool := equalFold pair.1 "for"

def Taken (element raw : Bytes) : Prop := ∃ texts pairs name, Divided (byte ';') element texts ∧
  (texts.map trimSpace).mapM trimmedPair = some pairs ∧ pairs.filter named = [(name, raw)]

def TakenAll (value : Bytes) (raws : List Bytes) : Prop := ∃ elements, Divided (byte ',') value elements ∧
  List.Forall₂ (fun element raw => Taken (trimSpace element) raw) elements raws

variable {element : Bytes}

theorem taken_unique {left right : Bytes} (one : Taken element left) (other : Taken element right) :
    left = right := by
  obtain ⟨texts, pairs, name, divided, read, found⟩ := one
  obtain ⟨texts', pairs', name', divided', read', found'⟩ := other
  obtain rfl := divided_unique _ _ divided divided'
  rw [read, Option.some.injEq] at read'
  subst read'
  rw [found] at found'
  cases found'
  rfl

theorem taken_all_unique {left : List Bytes} (right : List Bytes) (one : TakenAll value left)
    (other : TakenAll value right) : left = right := by
  obtain ⟨elements, divided, each⟩ := one
  obtain ⟨elements', divided', each'⟩ := other
  obtain rfl := divided_unique _ _ divided divided'
  clear divided divided'
  induction each generalizing right with
  | nil =>
    cases each'
    rfl
  | cons first _ ih =>
    cases each' with
    | cons first' rest' => rw [taken_unique first first', ih _ rest']

-- What the grammar of the header has instead: a parameter is a token, an equals sign
-- and a token or quoted string, and blanks stand around elements only.
def pairOf (text : Bytes) : Option (Bytes × Bytes) :=
  (cut (byte '=') text).filter (fun pair => isToken pair.1 && (valueText pair.2).isSome)

def ForValue (element raw : Bytes) : Prop := ∃ texts pairs name, Divided (byte ';') element texts ∧
  texts.mapM pairOf = some pairs ∧ pairs.filter named = [(name, raw)]

def ForValues (value : Bytes) (raws : List Bytes) : Prop := ∃ elements, Divided (byte ',') value elements ∧
  List.Forall₂ (fun element raw => ForValue (trimOws element) raw) elements raws

variable {raw text : Bytes}

theorem pair_taken {pair : Bytes × Bytes} (read : pairOf text = some pair) :
    Ended text ∧ trimmedPair (trimSpace text) = some pair := by
  obtain ⟨halves, kind⟩ := Option.filter_eq_some_iff.mp read
  rw [Bool.and_eq_true] at kind
  have name := ended_token kind.1
  have value := ended_value kind.2
  have ended : Ended text := by
    rw [cut_parts _ _ halves]
    exact name.append [byte '='] value
  refine ⟨ended, ?_⟩
  rw [ended.trimmed, trimmedPair, halves, Option.map_some, name.trimmed, value.trimmed]

theorem pairs_taken {texts : List Bytes} : ∀ {pairs}, texts.mapM pairOf = some pairs →
    (∀ text ∈ texts, Ended text) ∧ (texts.map trimSpace).mapM trimmedPair = some pairs := by
  induction texts with
  | nil => exact fun read => ⟨fun text member => absurd member List.not_mem_nil, read⟩
  | cons text rest ih =>
    intro pairs read
    rw [List.mapM_cons] at read
    obtain ⟨pair, first, later⟩ := Option.bind_eq_some_iff.mp read
    obtain ⟨others, more, shape⟩ := Option.bind_eq_some_iff.mp later
    cases shape
    obtain ⟨ended, taken⟩ := pair_taken first
    obtain ⟨allEnded, allTaken⟩ := ih more
    refine ⟨List.forall_mem_cons.mpr ⟨ended, allEnded⟩, ?_⟩
    rw [List.map_cons, List.mapM_cons, taken, allTaken]
    rfl

theorem for_value_taken (written : ForValue (trimOws element) raw) : Taken (trimSpace element) raw := by
  obtain ⟨texts, pairs, name, divided, read, only⟩ := written
  obtain ⟨ended, taken⟩ := pairs_taken read
  have whole : Ended (trimOws element) := divided.joined ▸ ended_join divided.filled ended
  rw [trim_space_ows whole]
  exact ⟨texts, pairs, name, divided, taken, only⟩

theorem for_values_taken {raws : List Bytes} (written : ForValues value raws) : TakenAll value raws := by
  obtain ⟨elements, divided, each⟩ := written
  exact ⟨elements, divided, each.imp fun _ _ => for_value_taken⟩

def Reading (raw : Bytes) (address : Addr) : Prop :=
  ∃ text, decodeForwardedValue raw = .ok text ∧ parseForwardedNode text = .ok address

theorem parameters_read {parameters : List Bytes} : ∀ (found result : Option Addr),
    parseParameters found parameters = .ok result → ∃ pairs, parameters.mapM trimmedPair = some pairs ∧
      (pairs.filter named = [] ∧ result = found ∨ found = none ∧ ∃ name raw address,
        pairs.filter named = [(name, raw)] ∧ result = some address ∧ Reading raw address) := by
  induction parameters with
  | nil =>
    intro found result done
    cases done
    exact ⟨[], rfl, .inl ⟨rfl, rfl⟩⟩
  | cons parameter rest ih =>
    intro found result done
    rw [parseParameters] at done
    cases halves : cut (byte '=') parameter with
    | none =>
      rw [halves] at done
      cases done
    | some parts =>
      obtain ⟨before, after⟩ := parts
      rw [halves] at done
      simp only at done
      have pair : trimmedPair parameter = some (trimSpace before, trimSpace after) := by rw [trimmedPair, halves]; rfl
      have more : ∀ pairs, rest.mapM trimmedPair = some pairs →
          (parameter :: rest).mapM trimmedPair = some ((trimSpace before, trimSpace after) :: pairs) := by
        intro pairs read
        rw [List.mapM_cons, pair, read]
        rfl
      split at done
      · cases done
      split at done
      · rename_i other
        have unnamed : named (trimSpace before, trimSpace after) = false := by simpa [named] using other
        split at done
        · cases done
        obtain ⟨pairs, read, kind⟩ := ih found result done
        refine ⟨_, more pairs read, ?_⟩
        rw [List.filter_cons_of_neg (by rw [unnamed]; exact Bool.false_ne_true)]
        exact kind
      · rename_i other
        have here : named (trimSpace before, trimSpace after) = true := by simpa [named] using other
        split at done
        · cases done
        rename_i fresh
        have none : found = none := by simpa using fresh
        subst none
        split at done
        · cases done
        rename_i text decoded
        split at done
        · cases done
        rename_i address parsed
        obtain ⟨pairs, read, kind⟩ := ih (some address) result done
        rcases kind with ⟨alone, rfl⟩ | ⟨impossible, _⟩
        · refine ⟨_, more pairs read, .inr ⟨rfl, trimSpace before, trimSpace after, address, ?_, rfl, text,
            decoded, parsed⟩⟩
          rw [List.filter_cons_of_pos here, alone]
        · cases impossible

theorem element_read (done : parseElement element = .ok address) :
    ∃ raw, Taken element raw ∧ Reading raw address := by
  rw [parseElement] at done
  split at done
  · cases done
  rename_i parameters split
  obtain ⟨texts, divided, rfl⟩ := split_divides (by decide) split
  split at done
  · cases done
  split at done
  · cases done
  · cases done
  · rename_i found read
    cases done
    obtain ⟨pairs, paired, kind⟩ := parameters_read none _ read
    rcases kind with ⟨_, impossible⟩ | ⟨_, name, raw, other, only, same, reading⟩
    · cases impossible
    · cases same
      exact ⟨raw, ⟨texts, pairs, name, divided, paired, only⟩, reading⟩

theorem elements_read {elements : List Bytes} : ∀ chain, parseElements elements = .ok chain →
    ∃ raws, List.Forall₂ Taken elements raws ∧ List.Forall₂ Reading raws chain := by
  induction elements with
  | nil =>
    intro chain done
    cases done
    exact ⟨[], .nil, .nil⟩
  | cons element rest ih =>
    intro chain done
    rw [parseElements] at done
    split at done
    · cases done
    rename_i address first
    split at done
    · cases done
    rename_i tail later
    cases done
    obtain ⟨raw, written, reading⟩ := element_read first
    obtain ⟨raws, all, readings⟩ := ih tail later
    exact ⟨raw :: raws, .cons written all, .cons reading readings⟩

theorem forwarded_read {chain : List Addr} (done : parseForwarded value = .ok chain) :
    ∃ raws, TakenAll value raws ∧ List.Forall₂ Reading raws chain := by
  rw [parseForwarded] at done
  split at done
  · cases done
  split at done
  · cases done
  rename_i elements split
  obtain ⟨texts, divided, rfl⟩ := split_divides (by decide) split
  split at done
  · cases done
  obtain ⟨raws, written, readings⟩ := elements_read chain done
  exact ⟨raws, ⟨texts, divided, List.forall₂_map_left_iff.mp written⟩, readings⟩

def Written (raw : Bytes) : Prop :=
  isToken raw = true ∨ ∃ body, raw = dquote :: (body ++ [dquote]) ∧ literal body = true

theorem valid_printable (valid : hasInvalidForwardedRune text = false) : Printable text := by
  have all : ∀ r ∈ runes text, 0x20 ≤ r ∧ r ≤ 0x7E := by
    intro r inside
    have range := List.any_eq_false.mp valid r inside
    simp only [decide_eq_true_eq] at range
    omega
  intro b member
  have low := small_runes_bytes (fun r inside => Nat.lt_of_le_of_lt (all r inside).2 (by decide)) b member
  exact all b.toNat (ascii_byte_rune low member)

theorem decode_agrees (decoded : decodeForwardedValue raw = .ok text) :
    valueText raw = some text ↔ Written raw := by
  rw [decodeForwardedValue] at decoded
  split at decoded
  · cases decoded
  split at decoded
  · rename_i unquoted
    split at decoded
    · cases decoded
    cases decoded
    have unwrapped : unwrap raw = none := by
      cases raw with
      | nil => rfl
      | cons b rest =>
        rw [unwrap, if_neg]
        rintro ⟨rfl, _⟩
        exact unquoted rfl
    rw [valueText, unwrapped]
    constructor
    · intro same
      split at same
      · exact .inl (by assumption)
      · cases same
    · rintro (token | ⟨body, rfl, _⟩)
      · rw [if_pos token]
      · exact absurd rfl unquoted
  · rename_i quoted
    rw [not_not] at quoted
    split at decoded
    · cases decoded
    rename_i out unquoted
    split at decoded
    · cases decoded
    rename_i valid
    cases decoded
    cases raw with
    | nil => cases quoted
    | cons b rest =>
      obtain rfl : b = dquote := by simpa using quoted
      rw [Strconv.unquote, if_neg (by decide), if_pos (.inl rfl)] at unquoted
      split at unquoted
      · rename_i read
        cases unquoted
        obtain ⟨body, meaning, rfl, meant, _, agree⟩ := unquote_body_reads _ _ _ read
          (valid_printable (Bool.eq_false_iff.mpr valid))
        have untoken : isToken (dquote :: (body ++ [dquote])) = false := by
          rw [isToken, List.all_cons, show tokenByte dquote = false by decide, Bool.false_and, Bool.and_false]
        rw [valueText, if_neg (by rw [untoken]; exact Bool.false_ne_true), unwrap_wrapped, Option.bind_some, meant,
          Option.some.injEq, agree]
        constructor
        · exact fun plain => .inr ⟨body, rfl, plain⟩
        · rintro (token | ⟨other, same, plain⟩)
          · rw [untoken] at token
            cases token
          · rw [List.append_cancel_right (List.cons.inj same).2]
            exact plain
      · cases unquoted

def portText (port : Bytes) : Bool :=
  decide (1 ≤ port.length ∧ port.length ≤ 5) && port.all isDigit ||
    decide (port.head? = some (byte '_') ∧ 1 < port.length) && (port.drop 1).all (fun b =>
      within (byte 'a') (byte 'z') b || within (byte 'A') (byte 'Z') b || isDigit b || (ascii "._-").contains b)

def bracketed (text : Bytes) : Option Bytes :=
  if text.head? = some (byte '[') ∧ text.getLast? = some (byte ']') then some (text.drop 1).dropLast else none

def hostAddress (host : Bytes) : Option Addr :=
  match bracketed host with
  | some inner => unzoned (parseAddr inner)
  | none =>
    match parseAddr host with
    | some (.v4 value) => some (.v4 value)
    | _ => none

def bareAddress (text : Bytes) : Option Addr :=
  (unzoned (parseAddr text)).or ((bracketed text).bind (fun inner => unzoned (parseAddr inner)))

-- The address of a node: an IP address with optional brackets and port. An
-- IPv4-mapped address is the IPv4 address it maps.
def nodeAddress (text : Bytes) : Option Addr :=
  if trimSpace text ≠ text then none
  else
    (bareAddress text).or ((cutLast (byte ':') text).bind (fun halves =>
      if portText halves.2 then hostAddress halves.1 else none))

def PlainNode (text : Bytes) : Prop :=
  trimSpace text = text ∧ ((bareAddress text).isSome = true ∨ ∃ host port, cutLast (byte ':') text = some (host, port) ∧
    portText port = true)

theorem v4_without_colon (parsed : parseAddr text = some address) (absent : text.contains (byte ':') = false) :
    ∃ value, address = .v4 value := by
  rw [parseAddr] at parsed
  split at parsed
  · cases parsed
  rename_i c first
  have member := List.mem_of_find?_eq_some first
  split at parsed
  · obtain ⟨fields, _, same⟩ := Option.map_eq_some_iff.mp parsed
    exact ⟨_, same.symm⟩
  · split at parsed
    · rename_i colon
      rw [colon] at member
      rw [← Bool.not_eq_true, List.contains_iff_mem] at absent
      exact absurd member absent
    · cases parsed

theorem bracketed_headless (other : text.head? ≠ some (byte '[')) : bracketed text = none := by
  rw [bracketed, if_neg (fun both => other both.1)]

theorem addr_port_host {host port : Bytes} (halves : cutLast (byte ':') text = some (host, port))
    (parsed : unzoned (parseAddrPort text) = some address) : hostAddress host = some address := by
  rw [parseAddrPort, halves] at parsed
  simp only at parsed
  split at parsed
  · cases parsed
  split at parsed
  · cases parsed
  rename_i wrapped
  split at parsed
  · cases parsed
  rw [hostAddress]
  by_cases opened : host.head? = some (byte '[')
  · have closing : host.getLast? = some (byte ']') := by
      by_contra unclosed
      exact wrapped ⟨decide_eq_true opened, .inr unclosed⟩
    rw [bracketed, if_pos ⟨opened, closing⟩]
    rw [decide_eq_true opened, if_pos rfl] at parsed
    simp only
    cases inner : parseAddr (host.drop 1).dropLast with
    | none =>
      rw [inner] at parsed
      cases parsed
    | some found =>
      rw [inner] at parsed
      simp only at parsed
      split at parsed
      · cases parsed
      · exact parsed
  · rw [bracketed_headless opened]
    rw [decide_eq_false opened, if_neg Bool.false_ne_true] at parsed
    simp only
    cases inner : parseAddr host with
    | none =>
      rw [inner] at parsed
      cases parsed
    | some found =>
      rw [inner] at parsed
      cases found with
      | v4 value => exact parsed
      | v6 value zone => cases parsed

theorem split_host {host port found rest : Bytes} (halves : cutLast (byte ':') text = some (host, port))
    (split : splitHostPort text = some (found, rest)) (parsed : unzoned (parseAddr found) = some address) :
    hostAddress host = some address := by
  have whole := cut_last_parts halves
  rw [splitHostPort, halves] at split
  simp only at split
  by_cases opened : text.head? = some (byte '[')
  · rw [if_pos opened] at split
    cases closed : cut (byte ']') text with
    | none =>
      rw [closed] at split
      cases split
    | some parts =>
      obtain ⟨before, after⟩ := parts
      rw [closed] at split
      simp only at split
      split at split
      · cases split
      rename_i adjacent
      split at split
      · cases split
      cases split
      have marked := cut_parts _ _ closed
      have sameHost : host = before ++ [byte ']'] := by
        have both : host ++ byte ':' :: port = (before ++ [byte ']']) ++ after := by
          rw [← whole, marked, List.append_assoc, List.singleton_append]
        refine (List.append_inj both ?_).1
        rw [List.length_append, List.length_singleton]
        omega
      cases before with
      | nil =>
        rw [marked] at opened
        cases opened
      | cons b inner =>
        obtain rfl : b = byte '[' := by
          rw [marked] at opened
          simpa using opened
        have wrapped : bracketed host = some inner := by
          rw [sameHost, bracketed, if_pos ⟨rfl, List.getLast?_concat⟩]
          simp
        rw [hostAddress, wrapped]
        exact parsed
  · rw [if_neg opened] at split
    split at split
    · cases split
    rename_i plain
    split at split
    · cases split
    cases split
    have headless : host.head? ≠ some (byte '[') := by
      intro same
      apply opened
      rw [whole, List.head?_append, same]
      rfl
    obtain ⟨known, parsedHost, unmapped⟩ := Option.bind_eq_some_iff.mp parsed
    obtain ⟨value, rfl⟩ := v4_without_colon parsedHost (Bool.eq_false_iff.mpr plain)
    rw [hostAddress, bracketed_headless headless, parsedHost]
    exact unmapped

theorem node_agrees (parsed : parseForwardedNode text = .ok address) :
    nodeAddress text = some address ↔ PlainNode text := by
  constructor
  · intro denoted
    rw [nodeAddress] at denoted
    split at denoted
    · cases denoted
    rename_i unblanked
    refine ⟨not_not.mp unblanked, ?_⟩
    cases bare : bareAddress text with
    | some found => exact .inl rfl
    | none =>
      rw [bare, Option.none_or] at denoted
      obtain ⟨⟨host, port⟩, halves, found⟩ := Option.bind_eq_some_iff.mp denoted
      split at found
      · rename_i digits
        exact .inr ⟨host, port, halves, digits⟩
      · cases found
  · rintro ⟨unblanked, kind⟩
    rw [nodeAddress, if_neg (not_not.mpr unblanked)]
    rw [parseForwardedNode, unblanked] at parsed
    simp only at parsed
    split at parsed
    · cases parsed
    have brackets : (if text.head? = some (byte '[') ∧ text.getLast? = some (byte ']') then
        unzoned (parseAddr (text.drop 1).dropLast) else none) =
          (bracketed text).bind (fun inner => unzoned (parseAddr inner)) := by
      rw [bracketed]
      split <;> rfl
    rw [brackets] at parsed
    rw [bareAddress] at kind ⊢
    cases first : unzoned (parseAddr text) with
    | some found =>
      rw [first] at parsed
      cases parsed
      rfl
    | none =>
      rw [first] at parsed kind
      simp only at parsed
      cases second : (bracketed text).bind (fun inner => unzoned (parseAddr inner)) with
      | some found =>
        rw [second] at parsed
        cases parsed
        rfl
      | none =>
        rw [second] at parsed kind
        simp only at parsed
        rcases kind with impossible | ⟨host, port, halves, digits⟩
        · cases impossible
        rw [Option.none_or, Option.none_or, halves, Option.bind_some, if_pos digits]
        cases third : unzoned (parseAddrPort text) with
        | some found =>
          rw [third] at parsed
          cases parsed
          exact addr_port_host halves third
        | none =>
          rw [third] at parsed
          simp only at parsed
          split at parsed
          · rename_i found rest divided
            split at parsed
            · rename_i known here
              cases parsed
              split at here
              · exact split_host halves divided here
              · cases here
            · cases parsed
          · cases parsed

def denoted (raw : Bytes) : Option Addr := (valueText raw).bind nodeAddress

def Proper (raw : Bytes) : Prop := Written raw ∧ ∃ text, valueText raw = some text ∧ PlainNode text

theorem reading_proper (reading : Reading raw address) :
    valueText raw = (decodeForwardedValue raw).toOption ∧ denoted raw = some address ↔ Proper raw := by
  obtain ⟨text, decoded, parsed⟩ := reading
  have texts := decode_agrees decoded
  have nodes := node_agrees parsed
  rw [decoded, show (Except.ok text : Except String Bytes).toOption = some text from rfl]
  constructor
  · rintro ⟨same, address⟩
    rw [denoted, same, Option.bind_some] at address
    exact ⟨texts.mp same, text, same, nodes.mp address⟩
  · rintro ⟨written, other, meant, plain⟩
    have same := texts.mpr written
    rw [same, Option.some.injEq] at meant
    subst meant
    exact ⟨same, by rw [denoted, same, Option.bind_some]; exact nodes.mpr plain⟩

theorem readings_proper {raws : List Bytes} {chain : List Addr} (readings : List.Forall₂ Reading raws chain) :
    (∀ raw ∈ raws, valueText raw = (decodeForwardedValue raw).toOption) ∧ raws.mapM denoted = some chain ↔
      ∀ raw ∈ raws, Proper raw := by
  induction readings with
  | nil =>
    have none : ∀ (holds : Bytes → Prop), ∀ raw ∈ ([] : List Bytes), holds raw :=
      fun _ raw member => absurd member List.not_mem_nil
    exact iff_of_true ⟨none _, rfl⟩ (none _)
  | @cons raw address raws chain reading _ ih =>
    have first := reading_proper reading
    rw [List.forall_mem_cons, List.forall_mem_cons, ← first, ← ih, List.mapM_cons]
    constructor
    · rintro ⟨⟨same, others⟩, all⟩
      obtain ⟨here, found, later⟩ := Option.bind_eq_some_iff.mp all
      obtain ⟨rest, more, shape⟩ := Option.bind_eq_some_iff.mp later
      cases shape
      exact ⟨⟨same, found⟩, others, more⟩
    · rintro ⟨⟨same, found⟩, others, more⟩
      refine ⟨⟨same, others⟩, ?_⟩
      rw [found, more]
      rfl

-- The for values of an accepted header that the grammar generates are read as the
-- grammar reads them, and the chain is what they denote, exactly when all of them
-- are proper. A header outside the grammar denotes no chain.
def Denotes (value : Bytes) (chain : List Addr) : Prop := ∃ raws, ForValues value raws ∧
  (∀ raw ∈ raws, valueText raw = (decodeForwardedValue raw).toOption) ∧ raws.mapM denoted = some chain

theorem forwarded_denotes (value : Bytes) (chain : List Addr) (accepted : parseForwarded value = .ok chain) :
    (∀ raws others, ForValues value raws → ForValues value others → others = raws) ∧
      (Denotes value chain ↔ ∃ raws, ForValues value raws ∧ ∀ raw ∈ raws, Proper raw) := by
  obtain ⟨raws, taken, readings⟩ := forwarded_read accepted
  have same : ∀ others, ForValues value others → others = raws :=
    fun others written => taken_all_unique raws (for_values_taken written) taken
  refine ⟨fun left right one other => (same right other).trans (same left one).symm, ?_⟩
  refine exists_congr fun others => and_congr_right fun written => ?_
  rw [same others written]
  exact readings_proper readings

theorem divided_single (absent : separator ∉ text) (closed : scan text = .outside) :
    Divided separator text [text] := by
  refine ⟨List.cons_ne_nil _ _, by simp [join], List.forall_mem_singleton.mpr closed, ?_⟩
  refine List.forall_mem_singleton.mpr fun front back shape => absurd ?_ absent
  exact shape ▸ List.mem_append_right front List.mem_cons_self

theorem forwarded_denotes_port :
    parseForwarded (ascii " for=\"[2001:db8:2::4]:1234\"") = .ok [.v6 0x20010db8000200000000000000000004 []] ∧
      Denotes (ascii " for=\"[2001:db8:2::4]:1234\"") [.v6 0x20010db8000200000000000000000004 []] := by
  have accepted : parseForwarded (ascii " for=\"[2001:db8:2::4]:1234\"") =
      .ok [.v6 0x20010db8000200000000000000000004 []] := by decide +kernel
  refine ⟨accepted, (forwarded_denotes _ _ accepted).2.mpr ⟨[ascii "\"[2001:db8:2::4]:1234\""], ?_, ?_⟩⟩
  · exact ⟨[_], divided_single (by decide +kernel) (by decide +kernel), .cons ⟨[_],
      [(ascii "for", ascii "\"[2001:db8:2::4]:1234\"")], ascii "for", divided_single (by decide +kernel)
        (by decide +kernel),
      by decide +kernel, by decide +kernel⟩ .nil⟩
  · exact List.forall_mem_singleton.mpr ⟨.inr ⟨ascii "[2001:db8:2::4]:1234", by decide +kernel, by decide +kernel⟩,
      ascii "[2001:db8:2::4]:1234", by decide +kernel, by decide +kernel, .inr ⟨ascii "[2001:db8:2::4]", ascii "1234",
        by decide +kernel, by decide +kernel⟩⟩

theorem go_escapes_taken :
    parseForwarded (ascii "for=\"\\x31.2.3.4\"") = .ok [.v4 0x01020304] ∧
      valueText (ascii "\"\\x31.2.3.4\"") = some (ascii "x31.2.3.4") ∧ denoted (ascii "\"\\x31.2.3.4\"") = none ∧
      parseForwarded (ascii "for=\"\\061::1\"") = .ok [.v6 0x00010000000000000000000000000001 []] ∧
      denoted (ascii "\"\\061::1\"") = some (.v6 0x00610000000000000000000000000001 []) ∧
      parseForwarded (ascii "for = 1.2.3.4") = .ok [.v4 0x01020304] ∧ pairOf (ascii "for = 1.2.3.4") = none :=
  ⟨by decide +kernel, by decide +kernel, by decide +kernel, by decide +kernel, by decide +kernel, by decide +kernel,
    by decide +kernel⟩

end Goforge.RateLimit
