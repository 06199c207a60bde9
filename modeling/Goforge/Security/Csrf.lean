import Goforge.Lib.Base64
import Goforge.Lib.JsonText
import Goforge.Session.Flash

set_option autoImplicit false

namespace Goforge.Csrf

open GoString Sessions

def tokenBytes : Nat := 32

def sessionKey : Bytes := ascii "_goforge.csrf.token"

inductive Failure where
  | invalidToken
  | sessionRequired
  | read
  | generate
  | store
deriving DecidableEq, Repr

-- base64.RawURLEncoding.EncodedLen
def encodedLen (n : Nat) : Nat := n / 3 * 4 + (n % 3 * 8 + 5) / 6

def decode (value : Bytes) : Option Bytes :=
  if value.length ≠ encodedLen tokenBytes then none
  else (Base64.decode value).filter (fun token => token.length = tokenBytes)

-- What the random source gives, unless it fails.
abbrev Entropy := Option { bytes : Bytes // bytes.length = tokenBytes }

def generate (source : Entropy) : Except Failure Bytes :=
  match source with
  | none => .error .generate
  | some token => .ok (Base64.encode token.val)

def stored (session : Session) : Except Failure (Option Bytes) :=
  match session.get sessionKey with
  | none => .ok none
  | some raw =>
    match Json.unmarshalString (ascii raw) with
    | none => .error .read
    | some token => .ok (some token)

def rotate (source : Entropy) (current : Option Session) : Except Failure Bytes × Option Session :=
  match current with
  | none => (.error .sessionRequired, none)
  | some session =>
    match generate source with
    | .error err => (.error err, some session)
    | .ok token =>
      match put sessionKey (some (text (Json.marshal token))) session with
      | (.error _, session) => (.error .store, some session)
      | (.ok _, session) => (.ok token, some session)

def ensure (source : Entropy) (current : Option Session) : Except Failure Bytes × Option Session :=
  match current with
  | none => (.error .sessionRequired, none)
  | some session =>
    match stored session with
    | .error err => (.error err, some session)
    | .ok (some token) =>
      if (decode token).isNone then (.error .invalidToken, some session) else (.ok token, some session)
    | .ok none => rotate source (some session)

-- The arrays are compared whatever they hold; it matters if both are decoded.
def validate (current : Option Session) (submitted : Bytes) : Except Failure Unit :=
  match current with
  | none => .error .sessionRequired
  | some session =>
    match stored session with
    | .error err => .error err
    | .ok none => .error .invalidToken
    | .ok (some token) =>
      match decode token, decode submitted with
      | some expected, some provided => if expected = provided then .ok () else .error .invalidToken
      | _, _ => .error .invalidToken

theorem decode_some_iff (value token : Bytes) :
    decode value = some token ↔ value = Base64.encode token ∧ token.length = tokenBytes := by
  rw [decode]
  constructor
  · intro run
    obtain ⟨length, run⟩ := Option.ite_none_left_eq_some.mp run
    obtain ⟨found, sized⟩ := Option.filter_eq_some_iff.mp run
    have sized : token.length = tokenBytes := of_decide_eq_true sized
    refine ⟨(Base64.decode_canonical ?_).mp found, sized⟩
    rw [sized]
    exact not_not.mp length
  · rintro ⟨rfl, sized⟩
    rw [if_neg (by rw [Base64.encode_length, sized]; decide), Base64.decode_encode]
    exact Option.filter_eq_some_iff.mpr ⟨rfl, decide_eq_true sized⟩

theorem validate_ok_iff (session : Session) (submitted : Bytes) :
    validate (some session) submitted = .ok () ↔ stored session = .ok (some submitted) ∧
    (decode submitted).isSome = true := by
  rw [validate]
  constructor
  · intro run
    split at run
    · cases run
    · cases run
    · rename_i token held
      split at run
      · rename_i expected provided first second
        split at run
        · rename_i same
          have left := ((decode_some_iff token expected).mp first).1
          have right := ((decode_some_iff submitted provided).mp second).1
          have spelling : token = submitted := by rw [left, right, same]
          exact ⟨spelling ▸ held, by rw [second]; rfl⟩
        · cases run
      · cases run
  · rintro ⟨held, decodes⟩
    obtain ⟨bytes, decoded⟩ := Option.isSome_iff_exists.mp decodes
    simp only [held, decoded, if_true]

variable {session after : Session} {token : Bytes}

theorem stored_same {later : Session} (same : later.get sessionKey = session.get sessionKey) :
    stored later = stored session := by
  rw [stored, stored, same]

theorem digits_safe : ∀ n < 64, Json.safe (Base64.digit n) = true := by
  decide

theorem ascii_text (bytes : Bytes) : ascii (text bytes) = bytes := by
  rw [ascii, text_chars, List.map_map]
  refine (List.map_congr_left (fun b _ => ?_)).trans (List.map_id bytes)
  show byte (latin b) = b
  rw [byte, latin_code, UInt8.ofNat_toNat]

theorem stored_generated (held : session.get sessionKey = some (text (Json.marshal (Base64.encode token)))) :
    stored session = .ok (some (Base64.encode token)) := by
  have kept : ∀ b ∈ Base64.encode token, Json.safe b = true := by
    intro b member
    obtain ⟨n, small, rfl⟩ := Base64.encode_digits token b member
    exact digits_safe n small
  rw [stored, held]
  simp only [ascii_text, Json.unmarshal_marshal_safe kept]

theorem rotate_returned {source : Entropy} (run : rotate source (some session) = (.ok token, some after)) :
    stored after = .ok (some token) ∧ (decode token).isSome = true ∧ after.values.lookup sessionKey ≠ none := by
  cases source with
  | none => cases run
  | some bytes =>
    cases run
    have inserted :
        (session.values.insert sessionKey (text (Json.marshal (Base64.encode bytes.val)))).lookup sessionKey =
        some (text (Json.marshal (Base64.encode bytes.val))) := AList.lookup_insert _
    refine ⟨stored_generated ?_, ?_, ?_⟩
    · rw [Session.get, inserted]
      rfl
    · rw [(decode_some_iff _ bytes.val).mpr ⟨rfl, bytes.property⟩]
      rfl
    · rw [inserted]
      exact Option.some_ne_none _

theorem ensure_returned {source : Entropy} (run : ensure source (some session) = (.ok token, some after)) :
    stored after = .ok (some token) ∧ (decode token).isSome = true := by
  rw [ensure] at run
  split at run
  · cases run
  · rename_i held
    split at run
    · cases run
    rename_i decodes
    cases run
    exact ⟨held, Option.isSome_iff_ne_none.mpr (fun none => decodes (by rw [none]; rfl))⟩
  · obtain ⟨held, decodes, _⟩ := rotate_returned run
    exact ⟨held, decodes⟩

def spares : Op → Bool
  | .put key _ => key ≠ sessionKey
  | .forget key => key ≠ sessionKey
  | _ => true

inductive Does (around : Surroundings) (policy : Policy) : Session × Shared → Session × Shared → Prop where
  | nothing (state : Session × Shared) : Does around policy state state
  | more (start : Session × Shared) (session after : Session) (s t : Shared) (op : Op)
      (before : Does around policy start (session, s)) (step : opStep around policy session s op after t)
      (spared : spares op = true) : Does around policy start (after, t)

theorem step_keeps {around : Surroundings} {policy : Policy} {s t : Shared} {op : Op}
    (step : opStep around policy session s op after t) (spared : spares op = true) :
    after.values.lookup sessionKey = session.values.lookup sessionKey := by
  cases op with
  | put key encoded =>
    obtain ⟨rfl, _⟩ := step
    cases encoded with
    | none => rfl
    | some raw => exact AList.lookup_insert_ne (Ne.symm (of_decide_eq_true spared))
  | flash key encoded =>
    obtain ⟨rfl, _⟩ := step
    cases encoded <;> rfl
  | forget key =>
    obtain ⟨rfl, _⟩ := step
    exact AList.lookup_erase_ne (Ne.symm (of_decide_eq_true spared))
  | get key =>
    obtain ⟨rfl, _⟩ := step
    rfl
  | regenerate rotation =>
    obtain ⟨result, run⟩ := step
    rw [(regenerate_runs run).1]
  | save =>
    obtain ⟨run, alive⟩ := step
    rw [(save_runs run alive).2.2.2.1]

theorem does_keeps {around : Surroundings} {policy : Policy} {start finish : Session × Shared}
    (run : Does around policy start finish) : finish.1.values.lookup sessionKey = start.1.values.lookup sessionKey := by
  induction run with
  | nothing => rfl
  | more session after s t op _ step spared ih => exact (step_keeps step spared).trans ih

theorem get_permanent {later : Session} (held : session.values.lookup sessionKey ≠ none)
    (same : later.values.lookup sessionKey = session.values.lookup sessionKey) :
    later.get sessionKey = session.get sessionKey := by
  rw [Session.get, Session.get, same]
  cases found : session.values.lookup sessionKey with
  | none => exact absurd found held
  | some raw => rfl

theorem validate_exact :
    (∀ (current : Option Session) (submitted : Bytes), validate current submitted = .ok () ↔
      ∃ session token bytes, current = some session ∧ stored session = .ok (some token) ∧
        decode token = some bytes ∧ bytes.length = tokenBytes ∧ submitted = token) ∧
    (∀ (source : Entropy) (session after : Session) (token : Bytes),
      ensure source (some session) = (.ok token, some after) ∨ rotate source (some session) = (.ok token, some after) →
      (∀ later : Session, later.get sessionKey = after.get sessionKey → validate (some later) token = .ok ()) ∧
      (after.values.lookup sessionKey ≠ none → ∀ (around : Surroundings) (policy : Policy) (s t : Shared)
        (later : Session),
        Does around policy (after, s) (later, t) → validate (some later) token = .ok ())) := by
  refine ⟨?_, ?_⟩
  · intro current submitted
    cases current with
    | none => exact iff_of_false nofun (by rintro ⟨_, _, _, ⟨⟩, _⟩)
    | some session =>
      rw [validate_ok_iff]
      constructor
      · rintro ⟨held, decodes⟩
        obtain ⟨bytes, decoded⟩ := Option.isSome_iff_exists.mp decodes
        exact ⟨session, submitted, bytes, rfl, held, decoded, ((decode_some_iff _ _).mp decoded).2, rfl⟩
      · rintro ⟨_, token, bytes, ⟨⟩, held, decoded, _, rfl⟩
        exact ⟨held, by rw [decoded]; rfl⟩
  · intro source session after token returned
    obtain ⟨held, decodes⟩ : stored after = .ok (some token) ∧ (decode token).isSome = true := by
      rcases returned with run | run
      · exact ensure_returned run
      · obtain ⟨held, decodes, _⟩ := rotate_returned run
        exact ⟨held, decodes⟩
    have accepted : ∀ later : Session, later.get sessionKey = after.get sessionKey →
        validate (some later) token = .ok () := by
      intro later same
      exact (validate_ok_iff later token).mpr ⟨(stored_same same).trans held, decodes⟩
    refine ⟨accepted, ?_⟩
    intro permanent around policy s t later run
    exact accepted later (get_permanent permanent (does_keeps run))

end Goforge.Csrf
