import Goforge.Lib.Interleave
import Goforge.Session.Store

set_option autoImplicit false

namespace Goforge.Sessions

open GoMap GoString GoTime Interleave

-- The lifetimes NewManagerWithPolicy accepts.
structure Policy where
  idleLifetime : Int
  absoluteLifetime : Int
  idlePositive : ¬ idleLifetime ≤ 0
  absoluteNonneg : ¬ absoluteLifetime < 0
  ordered : ¬ (absoluteLifetime > 0 ∧ absoluteLifetime < idleLifetime)

inductive Rotation where
  | regenerate
  | regenerateOrCreate
deriving DecidableEq, Repr

-- The last three fields are ghost state: whose values these are, the last rotation
-- staged on the object, and the reading of the clock at its last Save.
structure Session where
  id : String
  persistedID : String
  values : Values
  oldFlash : Values
  newFlash : Values
  issuedAt : Int
  createOnMissingRotation : Bool
  lineage : Option Nat
  staged : Option Rotation
  readAt : Option Nat

-- The cookie carries the id in its signed value; a deletion carries none. The
-- lineage and the reading of the clock it was made at are ghost state.
structure Cookie where
  id : String
  expires : Int
  maxAge : Int
  lineage : Option Nat
  madeAt : Int

inductive Err where
  | load (err : StoreErr)
  | decode
  | removeWithoutIssuance (err : StoreErr)
  | removeExpired (err : StoreErr)
  | uninitialized
  | saveWritten
  | encode
  | save (err : StoreErr)
  | expire (err : StoreErr)
  | regenerateNil
  | generateID
  | destroyWritten
  | destroy (err : StoreErr)
  | invalidateWritten
  | invalidate (err : StoreErr)
  | encodeValue (key : Bytes)
  | encodeFlash (key : Bytes)
deriving DecidableEq, Repr

-- What a manager asks for: the store, its clock, the random source, the
-- encoder, the response. The last question is ghost state: it numbers the
-- session that is issued at this reading.
inductive Question where
  | store (call : StoreCall)
  | now
  | newID
  | marshal (stored : Payload)
  | setCookie (cookie : Cookie)
  | removeCookie
  | issue (issuedAt : Nat)

abbrev Reply : Question → Type
  | .store call => call.Reply
  | .now => Nat
  | .newID => Option String
  | .marshal _ => Option Encoded
  | .setCookie _ => Unit
  | .removeCookie => Unit
  | .issue _ => Nat

abbrev M := Prog Reply

abbrev ask (question : Question) : M (Reply question) := Prog.query question

abbrev get (id : String) : M (Except StoreErr Row) := ask (.store (.get id))

abbrev create (id : String) (row : Row) : M (Except StoreErr Unit) := ask (.store (.create id row))

abbrev update (id : String) (row : Row) : M (Except StoreErr Unit) := ask (.store (.update id row))

abbrev rotate (oldID newID : String) (row : Row) : M (Except StoreErr Unit) := ask (.store (.rotate oldID newID row))

abbrev delete (id : String) : M (Except StoreErr Unit) := ask (.store (.delete id))

abbrev now : M Nat := ask .now

abbrev newID : M (Option String) := ask .newID

def absoluteExpired (policy : Policy) (issuedAt now : Int) : Bool :=
  decide (policy.absoluteLifetime > 0 ∧ ¬ now < issuedAt + policy.absoluteLifetime)

def cookieMaxAge (remaining : Int) : Int :=
  let seconds := remaining.tdiv second
  if remaining ≤ 0 ∨ seconds = 0 then -1 else seconds

-- Load and fresh return the session with the reading of the clock it was made
-- at.
def fresh : M (Except Err (Session × Nat)) := do
  match ← newID with
  | none => return .error .generateID
  | some id =>
    let issuedAt ← now
    let lineage ← ask (.issue issuedAt)
    return .ok (⟨id, "", ∅, ∅, ∅, issuedAt, false, some lineage, none, none⟩, issuedAt)

-- The delete of a session that may not be used any more. A row that is gone
-- already is no error.
def discard (id : String) (failed : StoreErr → Err) : M (Except Err (Session × Nat)) := do
  match ← delete id with
  | .error .notFound => fresh
  | .error err => return .error (failed err)
  | .ok _ => fresh

-- The id is the one verify found in the request's cookie, empty without one.
def load (policy : Policy) (id : String) : M (Except Err (Session × Nat)) :=
  if id = "" then fresh
  else do
    match ← get id with
    | .error .notFound => fresh
    | .error err => return .error (.load err)
    | .ok row =>
      match row.value with
      | .malformed _ => return .error .decode
      | .payload stored =>
        let reading ← now
        if isZero stored.issuedAt ∧ policy.absoluteLifetime > 0 then discard id .removeWithoutIssuance
        else
          let issuedAt := if isZero stored.issuedAt then (reading : Int) else stored.issuedAt
          if absoluteExpired policy issuedAt reading then discard id .removeExpired
          else return .ok (⟨id, id, stored.values, stored.flash, ∅, issuedAt, false, row.lineage, none, none⟩, reading)

def Session.cleared (session : Session) : Session :=
  ⟨"", "", ∅, ∅, ∅, zeroTime, false, none, session.staged, session.readAt⟩

def invalidate (session : Session) : M (Except StoreErr Unit × Session) :=
  if session.id = "" then return (.ok (), session)
  else if session.persistedID = "" then return (.ok (), session.cleared)
  else do
    match ← delete session.persistedID with
    | .error .notFound => return (.ok (), session.cleared)
    | .error err => return (.error err, session)
    | .ok _ => return (.ok (), session.cleared)

-- time.Unix(1, 0) and a negative Max-Age.
def deletion : Cookie := ⟨"", second, -1, none, 0⟩

def expire (session : Session) : M (Except StoreErr Unit × Session) := do
  match ← invalidate session with
  | (.error err, session) => return (.error err, session)
  | (.ok _, session) =>
    ask (.setCookie deletion)
    return (.ok (), session)

def expiresAt (policy : Policy) (issuedAt now : Int) : Int :=
  let idle := now + policy.idleLifetime
  if policy.absoluteLifetime > 0 ∧ issuedAt + policy.absoluteLifetime < idle then issuedAt + policy.absoluteLifetime
  else idle

def persist (session : Session) (row : Row) : M (Except StoreErr Unit) :=
  if session.persistedID = "" then create session.id row
  else if session.persistedID = session.id then update session.id row
  else do
    let result ← rotate session.persistedID session.id row
    if session.createOnMissingRotation ∧ result = .error .notFound then create session.id row
    else return result

-- A session without an issue time is issued by this Save.
def issued (session : Session) (reading : Nat) : M Session :=
  if isZero session.issuedAt then do
    let lineage ← ask (.issue reading)
    return { session with issuedAt := reading, lineage := some lineage, readAt := some reading }
  else return { session with readAt := some reading }

def save (policy : Policy) (written : Bool) (session : Session) : M (Except Err Unit × Session) :=
  if session.id = "" then return (.error .uninitialized, session)
  else if written then return (.error .saveWritten, session)
  else do
    let reading ← now
    let session ← issued session reading
    if absoluteExpired policy session.issuedAt reading then
      match ← expire session with
      | (.error err, session) => return (.error (.expire err), session)
      | (.ok _, session) => return (.ok (), session)
    else
      let expiry := expiresAt policy session.issuedAt reading
      match ← ask (.marshal ⟨session.issuedAt, session.values, session.newFlash⟩) with
      | none => return (.error .encode, session)
      | some encoded =>
        match ← persist session ⟨encoded, expiry, session.lineage⟩ with
        | .error err => return (.error (.save err), session)
        | .ok _ =>
          ask (.setCookie ⟨session.id, expiry, cookieMaxAge (sub expiry reading), session.lineage, reading⟩)
          return (.ok (), { session with
            persistedID := session.id, createOnMissingRotation := false, oldFlash := ∅ })

def regenerate (rotation : Rotation) (session : Session) : M (Except Err Unit × Session) := do
  match ← newID with
  | none => return (.error .generateID, session)
  | some id =>
    return (.ok (), { session with
      id := id, createOnMissingRotation := decide (rotation = .regenerateOrCreate), staged := some rotation })

def destroy (written : Bool) (session : Session) : M (Except Err Unit × Session) :=
  if written then return (.error .destroyWritten, session)
  else do
    match ← expire session with
    | (.error err, session) => return (.error (.destroy err), session)
    | (.ok _, session) => return (.ok (), session)

def invalidateQuietly (written : Bool) (session : Session) : M (Except Err Unit × Session) :=
  if written then return (.error .invalidateWritten, session)
  else do
    match ← invalidate session with
    | (.error err, session) => return (.error (.invalidate err), session)
    | (.ok _, session) =>
      ask .removeCookie
      return (.ok (), session)

-- The value as json.Marshal encodes it; none when it cannot.
def put (key : Bytes) (encoded : Option Raw) (session : Session) : Except Err Unit × Session :=
  match encoded with
  | none => (.error (.encodeValue key), session)
  | some encoded => (.ok (), { session with values := session.values.insert key encoded })

def flash (key : Bytes) (encoded : Option Raw) (session : Session) : Except Err Unit × Session :=
  match encoded with
  | none => (.error (.encodeFlash key), session)
  | some encoded => (.ok (), { session with newFlash := session.newFlash.insert key encoded })

def forget (key : Bytes) (session : Session) : Session :=
  { session with
    values := session.values.erase key
    oldFlash := session.oldFlash.erase key
    newFlash := session.newFlash.erase key }

inductive Method where
  | load (id : String)
  | put (key : Bytes) (encoded : Option Raw)
  | flash (key : Bytes) (encoded : Option Raw)
  | forget (key : Bytes)
  | save (written : Bool)
  | regenerate (rotation : Rotation)
  | destroy (written : Bool)
  | invalidate (written : Bool)

inductive Outcome where
  | idle
  | loaded (reading : Nat)
  | done
  | saved
  | failed (err : Err)
deriving DecidableEq, Repr

structure Local where
  session : Option Session
  outcome : Outcome

def finish (success : Outcome) (result : Except Err Unit × Session) : Local :=
  match result with
  | (.ok _, session) => ⟨some session, success⟩
  | (.error err, session) => ⟨some session, .failed err⟩

-- Put, Flash and Forget need a session object; there is none before a Load and
-- after one that failed.
def program (policy : Policy) (method : Method) (state : Local) : M Local :=
  match method, state.session with
  | .load id, _ => do
      match ← load policy id with
      | .ok (session, reading) => return ⟨some session, .loaded reading⟩
      | .error err => return ⟨none, .failed err⟩
  | .put key encoded, some session => return finish .done (put key encoded session)
  | .flash key encoded, some session => return finish .done (flash key encoded session)
  | .forget key, some session => return ⟨some (forget key session), .done⟩
  | .save written, some session => do return finish .saved (← save policy written session)
  | .save _, none => return ⟨none, .failed .uninitialized⟩
  | .regenerate rotation, some session => do return finish .done (← regenerate rotation session)
  | .regenerate _, none => return ⟨none, .failed .regenerateNil⟩
  | .destroy written, some session => do return finish .done (← destroy written session)
  | .destroy written, none =>
    if written then return ⟨none, .failed .destroyWritten⟩
    else do
      ask (.setCookie deletion)
      return ⟨none, .done⟩
  | .invalidate written, some session => do return finish .done (← invalidateQuietly written session)
  | .invalidate written, none =>
    if written then return ⟨none, .failed .invalidateWritten⟩
    else do
      ask .removeCookie
      return ⟨none, .done⟩
  | _, none => return state

end Goforge.Sessions
