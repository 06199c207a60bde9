import Goforge.RateLimit.Proxy

set_option autoImplicit false

namespace Goforge.RateLimit

open GoString Netip

def Unmapped (address : Addr) : Prop := address.unmap = address

variable {address : Addr} {text : Bytes}

theorem unzoned_unmapped {parsed : Option Addr} (done : unzoned parsed = some address) : Unmapped address := by
  obtain ⟨raw, _, kept⟩ := Option.bind_eq_some_iff.mp done
  obtain ⟨_, ⟨⟩⟩ := Option.ite_none_right_eq_some.mp kept
  exact unmap_unmap raw

theorem direct_unmapped (done : parseDirectAddress text = some address) : Unmapped address := by
  unfold parseDirectAddress at done
  split at done
  · rename_i raw _
    obtain ⟨_, ⟨⟩⟩ := Option.ite_none_left_eq_some.mp done
    exact unmap_unmap raw
  · cases done

theorem node_unmapped (done : parseForwardedNode text = .ok address) : Unmapped address := by
  unfold parseForwardedNode at done
  simp only at done
  split at done
  · cases done
  split at done
  · rename_i found
    cases done
    exact unzoned_unmapped found
  split at done
  · rename_i found
    cases done
    obtain ⟨_, inner⟩ := Option.ite_none_right_eq_some.mp found
    exact unzoned_unmapped inner
  split at done
  · rename_i found
    cases done
    exact unzoned_unmapped found
  split at done
  · split at done
    · rename_i found
      cases done
      obtain ⟨_, inner⟩ := Option.ite_none_right_eq_some.mp found
      exact unzoned_unmapped inner
    · cases done
  · cases done

structure Chain (hops : Nat) (chain : List Addr) : Prop where
  length : chain.length = hops
  unmapped : ∀ address ∈ chain, Unmapped address

theorem chain_cons {hops : Nat} {chain : List Addr} (head : Unmapped address) (tail : Chain hops chain) :
    Chain (hops + 1) (address :: chain) :=
  ⟨congrArg (· + 1) tail.length, List.forall_mem_cons.mpr ⟨head, tail.unmapped⟩⟩

theorem nodes_chain {parts : List Bytes} (chain : List Addr) (done : parseNodes parts = .ok chain) :
    Chain parts.length chain := by
  induction parts generalizing chain with
  | nil =>
    cases done
    exact ⟨rfl, by simp⟩
  | cons part rest ih =>
    unfold parseNodes at done
    split at done
    · cases done
    rename_i address parsed
    split at done
    · cases done
    rename_i tail later
    cases done
    exact chain_cons (node_unmapped parsed) (ih tail later)

theorem parameters_unmapped (found : Option Addr) {parameters : List Bytes} {result : Addr}
    (known : ∀ address, found = some address → Unmapped address)
    (done : parseParameters found parameters = .ok (some result)) : Unmapped result := by
  induction parameters generalizing found with
  | nil =>
    cases done
    exact known result rfl
  | cons parameter rest ih =>
    unfold parseParameters at done
    split at done
    · cases done
    simp only at done
    split at done
    · cases done
    split at done
    · split at done
      · cases done
      · exact ih found known done
    split at done
    · cases done
    split at done
    · cases done
    split at done
    · cases done
    rename_i address parsed
    exact ih (some address) (by rintro _ ⟨⟩; exact node_unmapped parsed) done

theorem element_unmapped {element : Bytes} (done : parseElement element = .ok address) : Unmapped address := by
  unfold parseElement at done
  split at done
  · cases done
  split at done
  · cases done
  split at done
  · cases done
  · cases done
  · rename_i found parsed
    cases done
    exact parameters_unmapped none (by rintro _ ⟨⟩) parsed

theorem elements_chain {elements : List Bytes} (chain : List Addr) (done : parseElements elements = .ok chain) :
    Chain elements.length chain := by
  induction elements generalizing chain with
  | nil =>
    cases done
    exact ⟨rfl, by simp⟩
  | cons element rest ih =>
    unfold parseElements at done
    split at done
    · cases done
    rename_i address parsed
    split at done
    · cases done
    rename_i tail later
    cases done
    exact chain_cons (element_unmapped parsed) (ih tail later)

theorem split_forwarded_nonempty {separator : UInt8} (quoted escaped : Bool) (part : Bytes) (result : List Bytes)
    {parts : List Bytes} (done : splitForwardedFrom separator quoted escaped part result text = .ok parts) :
    parts ≠ [] := by
  induction text generalizing quoted escaped part result with
  | nil =>
    unfold splitForwardedFrom at done
    split at done
    · cases done
    cases trimmed : trimmedPart part with
    | error err => rw [trimmed] at done; cases done
    | ok last =>
      rw [trimmed] at done
      cases done
      simp
  | cons character rest ih =>
    unfold splitForwardedFrom at done
    split at done
    · exact ih _ _ _ _ done
    split at done
    · exact ih _ _ _ _ done
    split at done
    · exact ih _ _ _ _ done
    split at done
    · split at done
      · cases done
      · exact ih _ _ _ _ done
    · exact ih _ _ _ _ done

theorem split_forwarded_plain {separator : UInt8} (part : Bytes) (result : List Bytes) (plain : dquote ∉ text)
    (whole : separator ∉ text) :
    splitForwardedFrom separator false false part result text =
      (trimmedPart (part ++ text)).map (fun part => result ++ [part]) := by
  induction text generalizing part with
  | nil => simp [splitForwardedFrom]
  | cons character rest ih =>
    have noQuote : character ≠ dquote := fun same => plain (same ▸ List.mem_cons_self)
    have noSeparator : character ≠ separator := fun same => whole (same ▸ List.mem_cons_self)
    simp only [splitForwardedFrom, Bool.false_eq_true, false_and, if_false, noQuote, noSeparator, and_false]
    rw [ih _ (fun later => plain (List.mem_cons_of_mem _ later)) (fun later => whole (List.mem_cons_of_mem _ later)),
      List.append_assoc, List.singleton_append]

theorem blank_absent {b : UInt8} (kept : solid b = true) (blank : trimSpace text = []) : b ∉ text := by
  intro member
  have survives := trim_keeps kept member
  rw [blank] at survives
  cases survives

theorem trim_blank : trimSpace [] = [] := rfl

theorem legacy_chain {value : Bytes} {chain : List Addr} (done : parseXForwardedFor value = .ok chain) :
    chain ≠ [] ∧ trimSpace value ≠ [] ∧ ∀ address ∈ chain, Unmapped address := by
  unfold parseXForwardedFor at done
  split at done
  · cases done
  split at done
  · cases done
  obtain ⟨length, unmapped⟩ := nodes_chain chain done
  refine ⟨?_, ?_, unmapped⟩
  · rintro rfl
    exact split_nonempty (byte ',') value (List.length_eq_zero_iff.mp length.symm)
  · intro blank
    rw [split_absent value (blank_absent rfl blank)] at done
    simp only [parseNodes, blank, parseForwardedNode, trim_blank, true_or, if_true] at done
    cases done

theorem forwarded_chain {value : Bytes} {chain : List Addr} (done : parseForwarded value = .ok chain) :
    chain ≠ [] ∧ trimSpace value ≠ [] ∧ ∀ address ∈ chain, Unmapped address := by
  unfold parseForwarded at done
  split at done
  · cases done
  split at done
  · cases done
  rename_i elements divided
  split at done
  · cases done
  obtain ⟨length, unmapped⟩ := elements_chain chain done
  refine ⟨?_, ?_, unmapped⟩
  · rintro rfl
    exact split_forwarded_nonempty _ _ _ _ divided (List.length_eq_zero_iff.mp length.symm)
  · intro blank
    unfold splitForwarded at divided
    rw [split_forwarded_plain [] [] (blank_absent rfl blank)
      (blank_absent rfl blank), List.nil_append, trimmedPart, if_pos blank] at divided
    cases divided

def Parses (request : Request) (chain : List Addr) : Prop :=
  (∃ value, request.header "Forwarded" = [value] ∧ request.header "X-Forwarded-For" = [] ∧
    parseForwarded value = .ok chain) ∨
  ∃ value, request.header "Forwarded" = [] ∧ request.header "X-Forwarded-For" = [value] ∧
    parseXForwardedFor value = .ok chain

inductive Unusable (request : Request) : Prop where
  | both (forwarded : request.header "Forwarded" ≠ []) (legacy : request.header "X-Forwarded-For" ≠ [])
  | repeated (name : String) (known : name = "Forwarded" ∨ name = "X-Forwarded-For")
      (many : 1 < (request.header name).length)
  | empty (name : String) (value : Bytes) (known : name = "Forwarded" ∨ name = "X-Forwarded-For")
      (single : request.header name = [value]) (blank : trimSpace value = [])
  | forwarded (value : Bytes) (err : String) (single : request.header "Forwarded" = [value])
      (malformed : parseForwarded value = .error err)
  | legacy (value : Bytes) (err : String) (single : request.header "X-Forwarded-For" = [value])
      (malformed : parseXForwardedFor value = .error err)

theorem walk_first (trusted : TrustedProxies) (current : Addr) {rest : List Addr}
    (unmapped : ∀ address ∈ rest, Unmapped address) :
    some (walk trusted current rest) =
      ((current :: rest).find? (fun hop => !trusted.contains hop)).or (current :: rest).getLast? := by
  induction rest generalizing current with
  | nil => cases trust : trusted.contains current <;> simp [walk, trust]
  | cons next left ih =>
    rw [walk]
    cases trust : trusted.contains current with
    | false => simp [trust]
    | true =>
      have plain : next.unmap = next := unmapped next List.mem_cons_self
      have later := ih next (fun address member => unmapped address (List.mem_cons_of_mem _ member))
      simp only [Bool.not_true, Bool.false_eq_true, if_false, plain, List.find?_cons, trust]
      rw [later, List.getLast?_cons_cons]
      rfl

section

variable (trusted : TrustedProxies) (request : Request)

theorem resolve_untrusted
    (outside : ∀ direct, parseDirectAddress (remoteAddress (some request)) = some direct →
      trusted.contains direct = false) :
    resolveClientAddress trusted (some request) = (remoteAddress (some request), none) := by
  unfold resolveClientAddress
  simp only
  cases parsed : parseDirectAddress (remoteAddress (some request)) with
  | none => rfl
  | some direct => simp only [outside direct parsed, Bool.not_false, if_true]

theorem resolve_parsed {direct : Addr} {chain : List Addr}
    (peer : parseDirectAddress (remoteAddress (some request)) = some direct)
    (inside : trusted.contains direct = true) (parses : Parses request chain) :
    (∀ address ∈ chain, Unmapped address) ∧ chain ≠ [] ∧
      resolveClientAddress trusted (some request) = ((walk trusted direct chain.reverse).string, none) := by
  have plain : direct.unmap = direct := direct_unmapped peer
  unfold resolveClientAddress
  simp only [peer, inside, Bool.not_true, Bool.false_eq_true, if_false, headerValues]
  rcases parses with ⟨value, forwarded, legacy, parsed⟩ | ⟨value, forwarded, legacy, parsed⟩
  · obtain ⟨nonempty, shown, unmapped⟩ := forwarded_chain parsed
    obtain ⟨head, tail, rfl⟩ := List.exists_cons_of_ne_nil nonempty
    simp only [forwarded, legacy, if_neg shown, parsed, plain]
    exact ⟨unmapped, nonempty, trivial⟩
  · obtain ⟨nonempty, shown, unmapped⟩ := legacy_chain parsed
    obtain ⟨head, tail, rfl⟩ := List.exists_cons_of_ne_nil nonempty
    simp only [forwarded, legacy, if_neg shown, parsed, plain]
    exact ⟨unmapped, nonempty, trivial⟩

theorem resolve_unparsed (present : request.header "Forwarded" ≠ [] ∨ request.header "X-Forwarded-For" ≠ [])
    (unparsed : ∀ chain, ¬ Parses request chain) :
    (resolveClientAddress trusted (some request)).1 = remoteAddress (some request) := by
  unfold resolveClientAddress
  simp only [headerValues]
  cases parseDirectAddress (remoteAddress (some request)) with
  | none => rfl
  | some direct =>
    simp only
    split
    · rfl
    rcases forwarded : request.header "Forwarded" with _ | ⟨value, _ | ⟨second, more⟩⟩ <;>
      rcases legacy : request.header "X-Forwarded-For" with _ | ⟨other, _ | ⟨third, others⟩⟩ <;> simp only
    · simp [forwarded, legacy] at present
    · split
      · rfl
      cases parsed : parseXForwardedFor other with
      | error err => rfl
      | ok chain => exact absurd (.inr ⟨other, forwarded, legacy, parsed⟩) (unparsed chain)
    · split
      · rfl
      cases parsed : parseForwarded value with
      | error err => rfl
      | ok chain => exact absurd (.inl ⟨value, forwarded, legacy, parsed⟩) (unparsed chain)

theorem unusable_unparsed (unusable : Unusable request) :
    (request.header "Forwarded" ≠ [] ∨ request.header "X-Forwarded-For" ≠ []) ∧ ∀ chain, ¬ Parses request chain := by
  cases unusable with
  | both forwarded legacy =>
    refine ⟨.inl forwarded, ?_⟩
    rintro chain (⟨_, _, none, _⟩ | ⟨_, none, _, _⟩)
    · exact legacy none
    · exact forwarded none
  | repeated name known many =>
    have filled : request.header name ≠ [] := List.ne_nil_of_length_pos (Nat.zero_lt_of_lt many)
    refine ⟨by rcases known with rfl | rfl; exacts [.inl filled, .inr filled], ?_⟩
    rintro chain (⟨_, forwarded, legacy, _⟩ | ⟨_, forwarded, legacy, _⟩) <;> rcases known with rfl | rfl <;>
      simp [forwarded, legacy] at many
  | empty name value known single blank =>
    have filled : request.header name ≠ [] := by simp [single]
    refine ⟨by rcases known with rfl | rfl; exacts [.inl filled, .inr filled], ?_⟩
    rintro chain (⟨only, forwarded, legacy, parsed⟩ | ⟨only, forwarded, legacy, parsed⟩)
    · have shown := (forwarded_chain parsed).2.1
      rcases known with rfl | rfl
      · rw [forwarded] at single
        cases single
        exact shown blank
      · rw [legacy] at single
        cases single
    · have shown := (legacy_chain parsed).2.1
      rcases known with rfl | rfl
      · rw [forwarded] at single
        cases single
      · rw [legacy] at single
        cases single
        exact shown blank
  | forwarded value err single malformed =>
    refine ⟨.inl (by simp [single]), ?_⟩
    rintro chain (⟨only, forwarded, _, parsed⟩ | ⟨_, forwarded, _, _⟩)
    · rw [forwarded] at single
      cases single
      rw [malformed] at parsed
      cases parsed
    · rw [forwarded] at single
      cases single
  | legacy value err single malformed =>
    refine ⟨.inr (by simp [single]), ?_⟩
    rintro chain (⟨_, _, legacy, _⟩ | ⟨only, _, legacy, parsed⟩)
    · rw [legacy] at single
      cases single
    · rw [legacy] at single
      cases single
      rw [malformed] at parsed
      cases parsed

end

theorem walk_common {trusted : TrustedProxies} (current : Addr) {common : List Addr} (rest rest' : List Addr)
    (stops : ∃ hop ∈ current :: common, trusted.contains hop = false)
    (unmapped : ∀ address ∈ common, Unmapped address) :
    walk trusted current (common ++ rest) = walk trusted current (common ++ rest') := by
  induction common generalizing current with
  | nil =>
    obtain ⟨hop, member, outside⟩ := stops
    obtain rfl := List.mem_singleton.mp member
    cases rest <;> cases rest' <;> simp [walk, outside]
  | cons next left ih =>
    rw [List.cons_append, List.cons_append, walk, walk]
    cases trust : trusted.contains current with
    | false => rfl
    | true =>
      obtain ⟨hop, member, outside⟩ := stops
      have plain : next.unmap = next := unmapped next List.mem_cons_self
      have further : hop ∈ next :: left := by
        rcases List.mem_cons.mp member with rfl | later
        · rw [trust] at outside
          cases outside
        · exact later
      simp only [Bool.not_true, Bool.false_eq_true, if_false, plain]
      exact ih next ⟨hop, further, outside⟩ (fun address member => unmapped address (List.mem_cons_of_mem _ member))

theorem client_address_resolves (trusted : TrustedProxies) (request : Option Request) :
    clientAddress trusted request = (resolveClientAddress trusted request).1 := by
  unfold clientAddress resolveClientAddress
  simp only
  repeat' split
  all_goals simp_all

theorem resolve_client_address (trusted : TrustedProxies) (request : Request) :
    (∀ direct chain, parseDirectAddress (remoteAddress (some request)) = some direct →
      trusted.contains direct = true → Parses request chain →
      ∃ client, ((direct :: chain.reverse).find? (fun hop => !trusted.contains hop)).or chain.head? = some client ∧
        resolveClientAddress trusted (some request) = (client.string, none)) ∧
    (∀ other direct left left' common, other.remoteAddr = request.remoteAddr →
      parseDirectAddress (remoteAddress (some request)) = some direct →
      Parses request (left ++ common) → Parses other (left' ++ common) →
      (∃ hop ∈ direct :: common.reverse, trusted.contains hop = false) →
      resolveClientAddress trusted (some request) = resolveClientAddress trusted (some other)) ∧
    ((∀ direct, parseDirectAddress (remoteAddress (some request)) = some direct →
        trusted.contains direct = false) →
      ∀ header, resolveClientAddress trusted (some { request with header := header }) =
        (remoteAddress (some request), none)) ∧
    (Unusable request → (resolveClientAddress trusted (some request)).1 = remoteAddress (some request)) := by
  refine ⟨?_, ?_, ?_, ?_⟩
  · intro direct chain peer inside parses
    obtain ⟨unmapped, nonempty, resolved⟩ := resolve_parsed trusted request peer inside parses
    refine ⟨walk trusted direct chain.reverse, ?_, resolved⟩
    rw [walk_first trusted direct (fun address member => unmapped address (List.mem_reverse.mp member))]
    obtain ⟨head, tail, rfl⟩ := List.exists_cons_of_ne_nil nonempty
    simp [List.getLast?_cons]
  · intro other direct left left' common same peer parses parses' stops
    have peer' : parseDirectAddress (remoteAddress (some other)) = some direct := by
      rw [← peer]
      simp only [remoteAddress, same]
    cases inside : trusted.contains direct with
    | false =>
      have outside : ∀ d, parseDirectAddress (remoteAddress (some request)) = some d → trusted.contains d = false := by
        intro d found
        rw [peer] at found
        cases found
        exact inside
      rw [resolve_untrusted trusted request outside, resolve_untrusted trusted other]
      · simp only [remoteAddress, same]
      · intro d found
        rw [peer'] at found
        cases found
        exact inside
    | true =>
      obtain ⟨unmapped, _, resolved⟩ := resolve_parsed trusted request peer inside parses
      obtain ⟨_, _, resolved'⟩ := resolve_parsed trusted other peer' inside parses'
      rw [resolved, resolved', List.reverse_append, List.reverse_append,
        walk_common direct left.reverse left'.reverse stops]
      intro address member
      exact unmapped address (List.mem_append_right _ (List.mem_reverse.mp member))
  · intro outside header
    exact resolve_untrusted trusted { request with header := header } outside
  · intro unusable
    obtain ⟨present, unparsed⟩ := unusable_unparsed request unusable
    exact resolve_unparsed trusted request present unparsed

def privateNetwork : TrustedProxies := ⟨[⟨.v4 0x0a000000, 8⟩]⟩

example : (parseTrustedProxies [ascii "10.0.0.0/8"]).map TrustedProxies.prefixes = .ok privateNetwork.prefixes := by
  decide +kernel

def viaProxy (chain : String) : Request :=
  ⟨ascii "10.0.0.1:443", fun name => if name = "X-Forwarded-For" then [ascii chain] else []⟩

theorem resolve_client_address_spoofed :
    resolveClientAddress privateNetwork (some (viaProxy "6.6.6.6, 1.2.3.4, 10.0.0.2")) = (ascii "1.2.3.4", none) ∧
      resolveClientAddress privateNetwork (some (viaProxy "1.2.3.4, 10.0.0.2")) = (ascii "1.2.3.4", none) := by
  have parses : Parses (viaProxy "1.2.3.4, 10.0.0.2") ([] ++ [.v4 0x01020304, .v4 0x0a000002]) :=
    .inr ⟨_, rfl, rfl, by decide +kernel⟩
  have spoofed :
      Parses (viaProxy "6.6.6.6, 1.2.3.4, 10.0.0.2") ([.v4 0x06060606] ++ [.v4 0x01020304, .v4 0x0a000002]) :=
    .inr ⟨_, rfl, rfl, by decide +kernel⟩
  have peer : parseDirectAddress (remoteAddress (some (viaProxy "1.2.3.4, 10.0.0.2"))) = some (.v4 0x0a000001) := by
    decide +kernel
  obtain ⟨first, agree, _⟩ := resolve_client_address privateNetwork (viaProxy "1.2.3.4, 10.0.0.2")
  obtain ⟨client, found, resolved⟩ := first _ _ peer (by decide) parses
  have named : client = .v4 0x01020304 := Option.some.inj (found.symm.trans (by decide))
  have same := agree (viaProxy "6.6.6.6, 1.2.3.4, 10.0.0.2") _ _ _ _ rfl peer parses spoofed
    ⟨.v4 0x01020304, by decide, by decide⟩
  rw [← same, resolved, named]
  exact ⟨by decide +kernel, by decide +kernel⟩

theorem trusted_leftmost_differs :
    parseXForwardedFor (ascii "10.0.0.2") = .ok [.v4 0x0a000002] ∧
      parseXForwardedFor (ascii "1.2.3.4, 10.0.0.2") = .ok [.v4 0x01020304, .v4 0x0a000002] ∧
      privateNetwork.contains (.v4 0x0a000002) = true ∧
      resolveClientAddress privateNetwork (some (viaProxy "10.0.0.2")) = (ascii "10.0.0.2", none) ∧
      resolveClientAddress privateNetwork (some (viaProxy "1.2.3.4, 10.0.0.2")) = (ascii "1.2.3.4", none) := by
  refine ⟨by decide +kernel, by decide +kernel, by decide, by decide +kernel, by decide +kernel⟩

end Goforge.RateLimit
