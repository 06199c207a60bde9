import Goforge.Lib.GoTime
import Goforge.Lib.Table
import Goforge.Security.Token

set_option autoImplicit false

namespace Goforge.Auth

open GoString GoTime Sql

def maxInt64 : Int := 9223372036854775807

-- A BIGINT NOT NULL CHECK (... > 0) column.
def positiveBigint (n : Int) : Bool := decide (0 < n ∧ n ≤ maxInt64)

structure User where
  id : Int
  name : Bytes
  email : Bytes
  passwordHash : Bytes
  credentialVersion : Int
  createdAt : Int
  updatedAt : Int
deriving DecidableEq, Repr

def userSchema : Schema User Int Bytes where
  key row := row.id
  index row := some row.email
  check row := positiveBigint row.credentialVersion

def selectorText (selector : Bytes) : Bool :=
  decide (selector.length = 22) && selector.all (fun c => (Base64.value c).isSome)

structure ResetToken where
  selector : Bytes
  userID : Int
  secretDigest : Bytes
  credentialVersion : Int
  expiresAt : Int
  createdAt : Int
  updatedAt : Int
deriving DecidableEq, Repr

def resetSchema : Schema ResetToken Bytes Int where
  key row := row.selector
  index row := some row.userID
  check row := selectorText row.selector && decide (row.secretDigest.length = 32) &&
    positiveBigint row.credentialVersion && decide (row.createdAt < row.expiresAt) &&
    decide (row.createdAt ≤ row.updatedAt)

structure PersonalTokenRow where
  id : Int
  userID : Int
  name : Bytes
  selector : Bytes
  secretDigest : Bytes
  credentialVersion : Int
  expiresAt : Int
  createdAt : Int
deriving DecidableEq, Repr

-- name = BTRIM(name) AND OCTET_LENGTH(name) BETWEEN 1 AND 80
def nameText (name : Bytes) : Bool :=
  decide (name.head? ≠ some (byte ' ')) && decide (name.getLast? ≠ some (byte ' ')) &&
    decide (1 ≤ name.length ∧ name.length ≤ 80)

-- The ids come from a sequence, so the selector stands in for the primary key.
def tokenSchema : Schema PersonalTokenRow Bytes (Int × Bytes) where
  key row := row.selector
  index row := some (row.userID, row.name)
  check row := nameText row.name && selectorText row.selector && decide (row.secretDigest.length = 32) &&
    positiveBigint row.credentialVersion && decide (row.createdAt < row.expiresAt)

structure DB where
  users : Table userSchema
  resets : Table resetSchema
  tokens : Table tokenSchema
  nextTokenID : Int

inductive Fault where
  | noRows
  | sql (err : SqlError)
  | other (text : String)
deriving DecidableEq, Repr

-- QueryRow and the One of a mutation: the first row, or sql.ErrNoRows.
def one {ρ : Type} (rows : List ρ) : Except Fault ρ :=
  match rows with
  | [] => .error .noRows
  | row :: _ => .ok row

def DB.updateUsers (db : DB) (pred : User → Bool) (assign : Assign userSchema pred) : Except Fault (User × DB) :=
  match db.users.update pred assign with
  | .error err => .error (.sql err)
  | .ok (table, rows) => (one rows).map (fun user => (user, { db with users := table }))

def hashIs (id : Int) (hash : Bytes) (user : User) : Bool := decide (user.id = id ∧ user.passwordHash = hash)

def rehashed (now : Int) (pred : User → Bool) (replacement : Bytes) : Assign userSchema pred where
  set user := { user with passwordHash := replacement, updatedAt := now }
  keepsKey _ _ := rfl
  keepsIndex _ _ := rfl

def DB.rehashPassword (db : DB) (now id : Int) (expectedHash replacementHash : Bytes) : Except Fault (User × DB) :=
  db.updateUsers (hashIs id expectedHash) (rehashed now _ replacementHash)

def credentialsAre (id version : Int) (hash : Bytes) (user : User) : Bool :=
  decide (user.id = id ∧ user.credentialVersion = version ∧ user.passwordHash = hash)

def changed (now : Int) (pred : User → Bool) (replacement : Bytes) : Assign userSchema pred where
  set user :=
    { user with passwordHash := replacement, credentialVersion := user.credentialVersion + 1, updatedAt := now }
  keepsKey _ _ := rfl
  keepsIndex _ _ := rfl

def DB.changePassword (db : DB) (now id expectedVersion : Int) (expectedHash replacementHash : Bytes) :
    Except Fault (User × DB) :=
  db.updateUsers (credentialsAre id expectedVersion expectedHash) (changed now _ replacementHash)

def revoked (now : Int) (pred : User → Bool) : Assign userSchema pred where
  set user := { user with credentialVersion := user.credentialVersion + 1, updatedAt := now }
  keepsKey _ _ := rfl
  keepsIndex _ _ := rfl

def DB.revokeSessions (db : DB) (now id : Int) : Except Fault (User × DB) :=
  db.updateUsers (fun user => decide (user.id = id)) (revoked now _)

inductive RequestErr where
  | accountMissing
  | store (err : SqlError)
  | other (text : String)
deriving DecidableEq, Repr

-- INSERT ... ON CONFLICT (user_id) DO UPDATE replaces every column but user_id.
def upsertReset (resets : Table resetSchema) (row : ResetToken) : Except SqlError (Table resetSchema) :=
  (resets.delete (fun other => decide (other.userID = row.userID))).1.insert row

-- The transaction of request; the mailer and the outbox succeed.
def DB.storeReset (db : DB) (now : Int) (email : Bytes) (issued : Token.Issued) (ttl : Int) :
    Except RequestErr (ResetToken × DB) :=
  match db.users.holder email with
  | none => .error .accountMissing
  | some user =>
    let row : ResetToken := ⟨issued.selector, user.id, issued.digest, user.credentialVersion,
      now + ttl.tdiv second * second, now, now⟩
    match upsertReset db.resets row with
    | .error err => .error (.store err)
    | .ok table => .ok (row, { db with resets := table })

-- The join of token and users on the selector of a live token.
def DB.liveReset (db : DB) (now : Int) (selector : Bytes) : Option (ResetToken × User) :=
  match db.resets.find selector with
  | none => none
  | some token =>
    if now < token.expiresAt then (db.users.find token.userID).map (fun user => (token, user)) else none

inductive ResetErr where
  | invalid
  | replace (err : SqlError)
  | other (text : String)
deriving DecidableEq, Repr

def versionIs (id version : Int) (user : User) : Bool := decide (user.id = id ∧ user.credentialVersion = version)

-- The transaction of Reset.
def DB.resetPassword (db : DB) (now : Int) (parsed : Token.Parsed) (passwordHash : Bytes) :
    Except ResetErr (ResetToken × DB) :=
  match db.liveReset now parsed.selector with
  | none => .error .invalid
  | some (token, user) =>
    if token.credentialVersion ≠ user.credentialVersion ∨ ¬ Token.matchDigest token.secretDigest parsed then
      .error .invalid
    else
      match db.users.update (versionIs token.userID user.credentialVersion) (changed now _ passwordHash) with
      | .error err => .error (.replace err)
      | .ok (table, updated) =>
        if updated.length ≠ 1 then .error .invalid
        else
          let (resets, deleted) := db.resets.delete (fun other => decide (other.selector = parsed.selector))
          if deleted.length ≠ 1 then .error .invalid
          else .ok (token, { db with users := table, resets := resets })

def maximumLivePersonalTokens : Nat := 10

def maximumPersonalTokenDays : Int := 90

inductive IssueErr where
  | credentialsChanged
  | name
  | limit
  | insert (err : SqlError)
  | other (text : String)
deriving DecidableEq, Repr

-- DELETE FROM personal_access_tokens ... expires_at <= NOW() OR credential_version <> $2
def pruneTokens (tokens : Table tokenSchema) (now userID version : Int) : Table tokenSchema :=
  (tokens.delete (fun row =>
    decide (row.userID = userID) && (decide (row.expiresAt ≤ now) || decide (row.credentialVersion ≠ version)))).1

-- The transaction of Issue. A day of the interval has 24 hours.
def DB.issueToken (db : DB) (now : Int) (user : User) (name : Bytes) (days : Int) (issued : Token.Issued) :
    Except IssueErr (PersonalTokenRow × DB) :=
  match db.users.find user.id with
  | none => .error .credentialsChanged
  | some account =>
    if account.credentialVersion ≠ user.credentialVersion then .error .credentialsChanged
    else
      let tokens := pruneTokens db.tokens now user.id account.credentialVersion
      let owned := tokens.rows.filter (fun row => decide (row.userID = user.id))
      if owned.any (fun row => decide (row.name = name)) then .error .name
      else if maximumLivePersonalTokens ≤ owned.length then .error .limit
      else
        let row : PersonalTokenRow := ⟨db.nextTokenID, user.id, name, issued.selector, issued.digest,
          account.credentialVersion, now + days * day, now⟩
        match tokens.insert row with
        | .error err => .error (.insert err)
        | .ok table => .ok (row, { db with tokens := table, nextTokenID := db.nextTokenID + 1 })

-- The query of Authenticate.
def DB.liveToken (db : DB) (now : Int) (selector : Bytes) : Option (PersonalTokenRow × User) :=
  match db.tokens.find selector with
  | none => none
  | some token =>
    match db.users.find token.userID with
    | none => none
    | some user =>
      if now < token.expiresAt ∧ token.credentialVersion = user.credentialVersion then some (token, user) else none

-- The number of rows deleted.
def DB.revokeToken (db : DB) (userID tokenID : Int) : Nat × DB :=
  let (tokens, deleted) := db.tokens.delete (fun row => decide (row.id = tokenID ∧ row.userID = userID))
  (deleted.length, { db with tokens := tokens })

end Goforge.Auth
