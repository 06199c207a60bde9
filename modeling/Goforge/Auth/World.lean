import Goforge.Auth.Service
import Goforge.Session.World

set_option autoImplicit false

namespace Goforge.Auth

open GoString Interleave Names

-- Ghost state: a step of this party that advanced the version of an account to
-- this one. A password change and a reset say which version they observed.
inductive Cause where
  | changed (observed : Int)
  | revoked
  | reset (selector : Bytes) (observed : Int)
deriving DecidableEq, Repr

structure Commit where
  party : Nat
  account : Int
  version : Int
  cause : Cause
deriving DecidableEq, Repr

def Cause.observed : Cause → Option Int
  | .changed observed => some observed
  | .revoked => none
  | .reset _ observed => some observed

def Cause.consumed : Cause → Option Bytes
  | .reset selector _ => some selector
  | _ => none

-- The sessions are those of one manager. All fields after them are ghost state:
-- the selectors drawn, the versions reset tokens were recorded under, the
-- commits in order and the credentials that passed a check.
structure Shared where
  db : DB
  clock : Nat
  sessions : Sessions.Shared
  selectors : Pool Bytes Nat
  records : List (Bytes × Int)
  commits : List Commit
  accepted : List Acceptance

-- A transaction that fails is rolled back.
def settled {ε α : Type} (db : DB) (result : Except ε (α × DB)) : Except ε α × DB :=
  match result with
  | .error err => (.error err, db)
  | .ok (value, db) => (.ok value, db)

def found {α : Type} (result : Option α) : Except Fault α :=
  match result with
  | none => .error .noRows
  | some value => .ok value

def Statement.run (now : Int) (db : DB) : (statement : Statement) → statement.Reply × DB
  | .byID id => (found (db.users.find id), db)
  | .byEmail email => (found (db.users.holder email), db)
  | .rehashPassword id expectedHash replacementHash =>
    settled db (db.rehashPassword now id expectedHash replacementHash)
  | .changePassword id expectedVersion expectedHash replacementHash =>
    settled db (db.changePassword now id expectedVersion expectedHash replacementHash)
  | .revokeSessions id => settled db (db.revokeSessions now id)
  | .storeReset email issued ttl => settled db (db.storeReset now email issued ttl)
  | .preflight selector => (found (db.liveReset now selector), db)
  | .reset parsed passwordHash _ => settled db (db.resetPassword now parsed passwordHash)
  | .issue user name days issued => settled db (db.issueToken now user name days issued)
  | .authenticate selector => (found (db.liveToken now selector), db)
  | .revokeToken userID tokenID => (.ok (db.revokeToken userID tokenID).1, (db.revokeToken userID tokenID).2)

def Statement.fail (text : String) : (statement : Statement) → statement.Reply
  | .byID _ => .error (.other text)
  | .byEmail _ => .error (.other text)
  | .rehashPassword _ _ _ => .error (.other text)
  | .changePassword _ _ _ _ => .error (.other text)
  | .revokeSessions _ => .error (.other text)
  | .storeReset _ _ _ => .error (.other text)
  | .preflight _ => .error (.other text)
  | .reset _ _ _ => .error (.other text)
  | .issue _ _ _ _ => .error (.other text)
  | .authenticate _ => .error (.other text)
  | .revokeToken _ _ => .error (.other text)

def Statement.commits (party : Nat) : (statement : Statement) → statement.Reply → List Commit
  | .changePassword _ expectedVersion _ _, .ok user =>
    [⟨party, user.id, user.credentialVersion, .changed expectedVersion⟩]
  | .revokeSessions _, .ok user => [⟨party, user.id, user.credentialVersion, .revoked⟩]
  | .reset parsed _ observed, .ok token =>
    [⟨party, token.userID, token.credentialVersion + 1, .reset parsed.selector observed⟩]
  | _, _ => []

def Statement.records : (statement : Statement) → statement.Reply → List (Bytes × Int)
  | .storeReset _ _ _, .ok token => [(token.selector, token.credentialVersion)]
  | _, _ => []

def Shared.effect (s : Shared) (party : Nat) (statement : Statement) : Shared :=
  { s with
    db := (statement.run s.clock s.db).2
    selectors := s.selectors.store ((statement.records (statement.run s.clock s.db).1).map Prod.fst)
    records := statement.records (statement.run s.clock s.db).1 ++ s.records
    commits := s.commits ++ statement.commits party (statement.run s.clock s.db).1 }

-- The database does what it is asked and says so; it fails and nothing changes;
-- it does what it is asked and the reply is lost.
inductive SqlAnswer (s : Shared) (party : Nat) (statement : Statement) : statement.Reply → Shared → Prop where
  | answered : SqlAnswer s party statement (statement.run s.clock s.db).1 (s.effect party statement)
  | failed (text : String) : SqlAnswer s party statement (statement.fail text) s
  | lost (text : String) : SqlAnswer s party statement (statement.fail text) (s.effect party statement)

def materialBytes : Nat := Token.selectorBytes + Token.secretBytes

-- Limiters, the hasher and the session store answer anything; tokens are fresh.
def answers (ext : Externals) (around : Sessions.Surroundings) (s : Shared) (party : Nat) :
    (question : Question) → Reply question → Shared → Prop
  | .session question, reply, t =>
    ∃ sessions, Sessions.answers around s.sessions party question reply sessions ∧ t = { s with sessions := sessions }
  | .take _ _, _, t => t = s
  | .clear _ _, _, t => t = s
  | .hash _, _, t => t = s
  | .newToken, none, t => t = s
  | .newToken, some issued, t =>
    (∃ material : Bytes, material.length = materialBytes ∧ issued = Token.issue ext.sum256 material) ∧
      issued.selector ∉ s.selectors.drawn ∧ t = { s with selectors := s.selectors.draw party issued.selector }
  | .sql statement, (reply, seen), t => seen = s.commits.length ∧ SqlAnswer s party statement reply t
  | .accept acceptance, _, t => t = { s with accepted := acceptance :: s.accepted }

def drifts (s t : Shared) : Prop :=
  ∃ clock sessions, s.clock ≤ clock ∧ Sessions.drifts s.sessions sessions ∧
    t = { s with clock := clock, sessions := sessions }

structure Initial (s : Shared) : Prop where
  sound : s.selectors.Sound
  records : s.records = s.db.resets.rows.map (fun row => (row.selector, row.credentialVersion))
  stored : ∀ record ∈ s.records, record.1 ∈ s.selectors.stored
  uncommitted : s.commits = []
  unchecked : s.accepted = []

def world (ext : Externals) (around : Sessions.Surroundings) : World Shared Nat Question Reply :=
  ⟨Initial, answers ext around, drifts⟩

def service (ext : Externals) (around : Sessions.Surroundings) :
    Machine.System (Config Shared Nat Reply Outcome) (Label Nat Method) :=
  interleaved (world ext around) (program ext) (fun _ => none)

def sampleAnswer (s : Shared) (party : Nat) : (question : Question) → Reply question × Shared
  | .session question =>
    let (reply, sessions) := Sessions.sampleAnswer s.sessions party question
    (reply, { s with sessions := sessions })
  | .take _ _ => (.ok true, s)
  | .clear _ _ => (.ok (), s)
  | .hash plain => (some plain, s)
  | .newToken => (none, s)
  | .sql statement => (((statement.run s.clock s.db).1, s.commits.length), s.effect party statement)
  | .accept acceptance => ((), { s with accepted := acceptance :: s.accepted })

theorem sample_answer_allowed (ext : Externals) (around : Sessions.Surroundings) (s : Shared) (party : Nat)
    (question : Question) :
    (world ext around).answers s party question (sampleAnswer s party question).1
    (sampleAnswer s party question).2 := by
  cases question with
  | session question => exact ⟨_, Sessions.sample_answer_allowed around s.sessions party question, rfl⟩
  | sql statement => exact ⟨rfl, .answered⟩
  | take | clear | hash | newToken | accept => rfl

def sampleUser : User := ⟨1, ascii "Ada", ascii "ada@example.com", ascii "old", 1, 0, 0⟩

def sampleShared : Shared where
  db := ⟨⟨[sampleUser], by decide, by decide, by decide⟩, .empty, .empty, 1⟩
  clock := 0
  sessions := Sessions.emptyShared
  selectors := .empty
  records := []
  commits := []
  accepted := []

theorem sample_initial : Initial sampleShared :=
  ⟨⟨(by rintro _ ⟨⟩), (by rintro _ _ ⟨⟩)⟩, rfl, (by rintro _ ⟨⟩), rfl, rfl⟩

def plainExternals : Externals where
  sum256 := fun bytes => bytes
  lower := fun bytes => bytes
  verify := fun hash plain => .ok (decide (hash = plain))
  verifyCurrent := fun hash plain => .ok (decide (hash = plain))
  needsRehash := fun _ => false
  policy := Sessions.shortPolicy
  ttl := 0

def samplePlay (moves : List (Nat × Method)) : Config Shared Nat Reply Outcome :=
  play sampleAnswer (program plainExternals) moves ⟨sampleShared, fun _ => .ret none⟩

theorem sample_play_reached (around : Sessions.Surroundings) (moves : List (Nat × Method)) :
    Machine.Reach (service plainExternals around) (samplePlay moves) :=
  play_reached (sample_answer_allowed plainExternals around) sample_initial moves

end Goforge.Auth
