import Goforge.Auth.Tables
import Goforge.Session.Manager

set_option autoImplicit false

namespace Goforge.Auth

open GoString Interleave Sessions

-- One atomic use of the database: a statement, or a whole transaction. The
-- observed version of a reset is ghost state: the account's version as the
-- preflight query saw it.
inductive Statement where
  | byID (id : Int)
  | byEmail (email : Bytes)
  | rehashPassword (id : Int) (expectedHash replacementHash : Bytes)
  | changePassword (id expectedVersion : Int) (expectedHash replacementHash : Bytes)
  | revokeSessions (id : Int)
  | storeReset (email : Bytes) (issued : Token.Issued) (ttl : Int)
  | preflight (selector : Bytes)
  | reset (parsed : Token.Parsed) (passwordHash : Bytes) (observed : Int)
  | issue (user : User) (name : Bytes) (days : Int) (issued : Token.Issued)
  | authenticate (selector : Bytes)
  | revokeToken (userID tokenID : Int)

abbrev Statement.Reply : Statement → Type
  | .byID _ => Except Fault User
  | .byEmail _ => Except Fault User
  | .rehashPassword _ _ _ => Except Fault User
  | .changePassword _ _ _ _ => Except Fault User
  | .revokeSessions _ => Except Fault User
  | .storeReset _ _ _ => Except RequestErr ResetToken
  | .preflight _ => Except Fault (ResetToken × User)
  | .reset _ _ _ => Except ResetErr ResetToken
  | .issue _ _ _ _ => Except IssueErr PersonalTokenRow
  | .authenticate _ => Except Fault (PersonalTokenRow × User)
  | .revokeToken _ _ => Except Fault Nat

-- Ghost state: a credential passed a check. It names the account, the version
-- the credential was recorded under, and how many commits there were when the
-- check read the account.
inductive Credential where
  | session
  | personalToken (selector : Bytes)
  | resetToken (selector : Bytes)
deriving DecidableEq, Repr

structure Acceptance where
  credential : Credential
  account : Int
  recorded : Int
  readAt : Nat
deriving DecidableEq, Repr

inductive Question where
  | session (question : Sessions.Question)
  | take (scope : String) (key : Bytes)
  | clear (scope : String) (key : Bytes)
  | hash (plain : Bytes)
  | newToken
  | sql (statement : Statement)
  | accept (acceptance : Acceptance)

-- The number next to a reply of the database is ghost state: the commits so
-- far.
abbrev Reply : Question → Type
  | .session question => Sessions.Reply question
  | .take _ _ => Except String Bool
  | .clear _ _ => Except String Unit
  | .hash _ => Option Bytes
  | .newToken => Option Token.Issued
  | .sql statement => statement.Reply × Nat
  | .accept _ => Unit

inductive Err where
  | credentialsChanged
  | queryUser (cause : Fault)
  | updateCredentials (cause : Fault)
  | invalidPasswordReset
  | resetLimit (cause : String)
  | preflight (cause : Fault)
  | hashReplacement
  | reset (cause : ResetErr)
  | invalidIssuance
  | issueToken
  | createToken (cause : IssueErr)
  | invalidPersonalToken
  | authenticateToken
  | tokenNotFound
  | revokeToken
  | invalidCredentials
  | invalidCurrentPassword
  | verify (cause : String)
  | hash
  | rehash
  | tooManyAttempts
  | limiter (cause : String)
  | unauthorized
  | sessionValue (key : Bytes)
  | session (err : Sessions.Err)
deriving DecidableEq, Repr

-- What the service takes from elsewhere: SHA-256, lower casing, the password
-- hasher and the lifetimes it was built with.
structure Externals where
  sum256 : Bytes → Bytes
  lower : Bytes → Bytes
  verify : Bytes → Bytes → Except String Bool
  verifyCurrent : Bytes → Bytes → Except String Bool
  needsRehash : Bytes → Bool
  policy : Policy
  ttl : Int

abbrev M (α : Type) := ExceptT Err (Prog Reply) α

def ask (question : Question) : M (Reply question) := ExceptT.lift (Prog.query question)

def sql (statement : Statement) : M (statement.Reply × Nat) := ask (.sql statement)

def sessions {α : Type} (prog : Sessions.M (Except Sessions.Err α)) : M α := do
  match ← ExceptT.lift (prog.embed Question.session (fun _ reply => reply)) with
  | .error err => throw (.session err)
  | .ok value => return value

-- A call that changes the session object, with the error after the change.
def changing (prog : Sessions.M (Except Sessions.Err Unit × Session)) : M Session := do
  match ← ExceptT.lift (prog.embed Question.session (fun _ reply => reply)) with
  | (.error err, _) => throw (.session err)
  | (.ok _, session) => return session

section

variable (ext : Externals)

def normalizeEmail (email : Bytes) : Bytes := ext.lower (trimSpace email)

def credentialResult (reply : Except Fault User) : M User :=
  match reply with
  | .ok user => return user
  | .error .noRows => throw .credentialsChanged
  | .error cause => throw (.updateCredentials cause)

def Repository.rehashPassword (id : Int) (expectedHash replacementHash : Bytes) : M User := do
  let (reply, _) ← sql (.rehashPassword id expectedHash replacementHash)
  credentialResult reply

def Repository.changePassword (id expectedVersion : Int) (expectedHash replacementHash : Bytes) : M User := do
  let (reply, seen) ← sql (.changePassword id expectedVersion expectedHash replacementHash)
  let user ← credentialResult reply
  ask (.accept ⟨.session, id, expectedVersion, seen⟩)
  return user

def Repository.revokeSessions (id : Int) : M User := do
  let (reply, _) ← sql (.revokeSessions id)
  credentialResult reply

-- PasswordRecovery.request; every failure is only reported to the observer.
def PasswordRecovery.request (email : Bytes) : M Unit := do
  let email := normalizeEmail ext email
  match ← ask (.take "auth-account-password-recovery" email) with
  | .error _ => return ()
  | .ok false => return ()
  | .ok true =>
    match ← ask .newToken with
    | none => return ()
    | some issued =>
      let _ ← sql (.storeReset email issued ext.ttl)
      return ()

def PasswordRecovery.reset (presented replacement : Bytes) : M Unit := do
  match Token.parse ext.sum256 presented with
  | none => throw .invalidPasswordReset
  | some parsed =>
    match ← ask (.take "auth-token-password-reset" parsed.selector) with
    | .error cause => throw (.resetLimit cause)
    | .ok false => throw .invalidPasswordReset
    | .ok true =>
      match ← sql (.preflight parsed.selector) with
      | (.error .noRows, _) => throw .invalidPasswordReset
      | (.error cause, _) => throw (.preflight cause)
      | (.ok (token, user), seen) =>
        if token.credentialVersion ≠ user.credentialVersion ∨ ¬ Token.matchDigest token.secretDigest parsed then
          throw .invalidPasswordReset
        else
          ask (.accept ⟨.resetToken parsed.selector, user.id, token.credentialVersion, seen⟩)
          match ← ask (.hash replacement) with
          | none => throw .hashReplacement
          | some passwordHash =>
            match ← sql (.reset parsed passwordHash user.credentialVersion) with
            | (.error .invalid, _) => throw .invalidPasswordReset
            | (.error cause, _) => throw (.reset cause)
            | (.ok token, seen) =>
              ask (.accept ⟨.resetToken parsed.selector, token.userID, token.credentialVersion, seen⟩)

def PersonalTokens.issue (user : User) (name : Bytes) (days : Int) : M PersonalTokenRow := do
  let name := trimSpace name
  if user.id < 1 ∨ user.credentialVersion < 1 ∨ name.length < 1 ∨ name.length > 80 ∨ days < 1 ∨
      days > maximumPersonalTokenDays then
    throw .invalidIssuance
  else
    match ← ask .newToken with
    | none => throw .issueToken
    | some issued =>
      match ← sql (.issue user name days issued) with
      | (.error cause, _) => throw (.createToken cause)
      | (.ok row, seen) =>
        ask (.accept ⟨.session, user.id, user.credentialVersion, seen⟩)
        return row

def personalTokenPrefix : Bytes := ascii "goforge_pat_"

def PersonalTokens.authenticate (presented : Bytes) : M User := do
  if ¬ personalTokenPrefix.isPrefixOf presented then throw .invalidPersonalToken
  else
    match Token.parse ext.sum256 (presented.drop personalTokenPrefix.length) with
    | none => throw .invalidPersonalToken
    | some parsed =>
      match ← sql (.authenticate parsed.selector) with
      | (.error .noRows, _) => throw .invalidPersonalToken
      | (.error _, _) => throw .authenticateToken
      | (.ok (token, user), seen) =>
        if token.id < 1 ∨ user.id < 1 ∨ ¬ Token.matchDigest token.secretDigest parsed then
          throw .invalidPersonalToken
        else
          ask (.accept ⟨.personalToken parsed.selector, user.id, token.credentialVersion, seen⟩)
          return user

def PersonalTokens.revoke (userID tokenID : Int) : M Unit := do
  if userID < 1 ∨ tokenID < 1 then throw .tokenNotFound
  else
    match ← sql (.revokeToken userID tokenID) with
    | (.error _, _) => throw .revokeToken
    | (.ok deleted, _) => if deleted ≠ 1 then throw .tokenNotFound else return ()

-- json.Unmarshal of a number into an int64; null leaves the zero it had.
def decodeInt64 (raw : Raw) : Option Int :=
  if raw = "null" then some 0
  else
    let (negative, digits) := match raw.toList with
      | '-' :: digits => (true, digits)
      | digits => (false, digits)
    if digits = [] ∨ ¬ digits.all Char.isDigit ∨ (digits.head? = some '0' ∧ digits.length ≠ 1) then none
    else
      let magnitude : Int := digits.foldl (fun n c => n * 10 + (c.toNat - 48)) 0
      let n := if negative then -magnitude else magnitude
      if n < -maxInt64 - 1 ∨ maxInt64 < n then none else some n

def getInt64 (session : Session) (key : Bytes) : M (Option Int) :=
  match (session.values.lookup key).or (session.oldFlash.lookup key) with
  | none => return none
  | some raw =>
    match decodeInt64 raw with
    | none => throw (.sessionValue key)
    | some n => return some n

def authenticatedIdentity (current : Session) : M (Option (Int × Int)) := do
  match ← getInt64 current (ascii "user_id") with
  | none => return none
  | some userID =>
    match ← getInt64 current (ascii "credential_version") with
    | none => return none
    | some credentialVersion =>
      if credentialVersion < 1 then return none else return some (userID, credentialVersion)

def putAuthenticatedIdentity (current : Session) (user : User) : Session :=
  let current := (put (ascii "user_id") (some (toString user.id)) current).2
  (put (ascii "credential_version") (some (toString user.credentialVersion)) current).2

-- What Require and RequireWeb do alike: they turn away a session without an
-- identity, of no account, or of another generation than its account's.
def checkIdentity {α : Type} (current : Session) (passed : User → Int → Nat → M α) : M α := do
  match ← authenticatedIdentity current with
  | none =>
    let _ ← changing (invalidateQuietly false current)
    throw .unauthorized
  | some (userID, credentialVersion) =>
    match ← sql (.byID userID) with
    | (.error .noRows, _) =>
      let _ ← changing (invalidateQuietly false current)
      throw .unauthorized
    | (.error cause, _) => throw (.queryUser cause)
    | (.ok user, seen) =>
      if user.credentialVersion ≠ credentialVersion then
        let _ ← changing (invalidateQuietly false current)
        throw .unauthorized
      else passed user credentialVersion seen

-- Require up to the call of next, on the session id in the request's cookie.
def require (cookie : String) : M (User × Session) := do
  let (current, _) ← sessions (load ext.policy cookie)
  checkIdentity current fun user credentialVersion seen => do
    let current ← changing (save ext.policy false current)
    if current.id = "" then throw .unauthorized
    else
      ask (.accept ⟨.session, user.id, credentialVersion, seen⟩)
      return (user, current)

-- RequireWeb inside web.Sessions, which saves the session after the page.
def requireWeb (cookie : String) : M User := do
  let (current, _) ← sessions (load ext.policy cookie)
  checkIdentity current fun user credentialVersion seen => do
    ask (.accept ⟨.session, user.id, credentialVersion, seen⟩)
    let _ ← changing (save ext.policy false current)
    return user

-- Limiter.Enforce.
def enforce (scope : String) (key : Bytes) : M Unit := do
  match ← ask (.take scope key) with
  | .error cause => throw (.limiter cause)
  | .ok false => throw .tooManyAttempts
  | .ok true => return ()

-- Limiter.Reset.
def clearLimit (scope : String) (key : Bytes) : M Unit := do
  match ← ask (.clear scope key) with
  | .error cause => throw (.limiter cause)
  | .ok _ => return ()

def verified (result : Except String Bool) (refused : Err) : M Unit :=
  match result with
  | .error cause => throw (.verify cause)
  | .ok false => throw refused
  | .ok true => return ()

def Controller.rehashPassword (user : User) (plain : Bytes) : M User := do
  match ← ask (.hash plain) with
  | none => throw .rehash
  | some replacement =>
    match ← sql (.rehashPassword user.id user.passwordHash replacement) with
    | (.error .noRows, _) =>
      -- Another request changed the hash: verify against the winner.
      match ← sql (.byID user.id) with
      | (.error .noRows, _) => throw .invalidCredentials
      | (.error cause, _) => throw (.queryUser cause)
      | (.ok latest, _) =>
        verified (ext.verify latest.passwordHash plain) .invalidCredentials
        return latest
    | (reply, _) => credentialResult reply

def Controller.authenticate (email password : Bytes) : M User := do
  match ← sql (.byEmail (normalizeEmail ext email)) with
  | (.error .noRows, _) => throw .invalidCredentials
  | (.error cause, _) => throw (.queryUser cause)
  | (.ok user, _) =>
    verified (ext.verifyCurrent user.passwordHash password) .invalidCredentials
    if ext.needsRehash user.passwordHash then Controller.rehashPassword ext user password else return user

def Controller.startSession (cookie : String) (user : User) : M Unit := do
  let (current, _) ← sessions (load ext.policy cookie)
  let current ← changing (regenerate .regenerate current)
  let _ ← changing (save ext.policy false (putAuthenticatedIdentity current user))
  return ()

def Controller.login (cookie : String) (email password : Bytes) : M Unit := do
  let key := normalizeEmail ext email
  enforce "auth-account-login" key
  let user ← Controller.authenticate ext email password
  clearLimit "auth-account-login" key
  Controller.startSession ext cookie user

def Controller.changePassword (user : User) (current replacement : Bytes) : M User := do
  let key := ascii (toString user.id)
  enforce "auth-account-password" key
  verified (ext.verify user.passwordHash current) .invalidCurrentPassword
  clearLimit "auth-account-password" key
  match ← ask (.hash replacement) with
  | none => throw .hashReplacement
  | some replacementHash => Repository.changePassword user.id user.credentialVersion user.passwordHash replacementHash

-- Controller.ChangePassword behind Require; the session of a request that lost
-- the race is removed.
def Controller.changePasswordRequest (cookie : String) (currentPassword replacement : Bytes) : M Unit := do
  let (user, current) ← require ext cookie
  match ← ExceptT.lift (Controller.changePassword ext user currentPassword replacement).run with
  | .error .credentialsChanged =>
    let _ ← changing (invalidateQuietly false current)
    throw .credentialsChanged
  | .error err => throw err
  | .ok updated =>
    let current ← changing (regenerate .regenerateOrCreate current)
    let _ ← changing (save ext.policy false (putAuthenticatedIdentity current updated))
    return ()

def Controller.revokeAllRequest (cookie : String) : M Unit := do
  let (user, current) ← require ext cookie
  let _ ← Repository.revokeSessions user.id
  let _ ← changing (destroy false current)
  return ()

def Controller.createTokenRequest (cookie : String) (currentPassword name : Bytes) (days : Int) : M Unit := do
  let (user, _) ← require ext cookie
  let key := ascii (toString user.id)
  enforce "auth-account-personal-token" key
  verified (ext.verifyCurrent user.passwordHash currentPassword) .invalidCurrentPassword
  clearLimit "auth-account-personal-token" key
  let _ ← PersonalTokens.issue user name days
  return ()

def Controller.revokeTokenRequest (cookie : String) (tokenID : Int) : M Unit := do
  let (user, _) ← require ext cookie
  PersonalTokens.revoke user.id tokenID

def Controller.logoutRequest (cookie : String) : M Unit := do
  let (_, current) ← require ext cookie
  let _ ← changing (destroy false current)
  return ()

-- Calls of the service's own methods, with any arguments, next to the requests
-- that make them.
inductive Method where
  | login (cookie : String) (email password : Bytes)
  | rehashPassword (id : Int) (expectedHash replacementHash : Bytes)
  | changePassword (id expectedVersion : Int) (expectedHash replacementHash : Bytes)
  | revokeSessions (id : Int)
  | request (email : Bytes)
  | reset (presented replacement : Bytes)
  | issue (user : User) (name : Bytes) (days : Int)
  | authenticate (presented : Bytes)
  | revoke (userID tokenID : Int)
  | me (cookie : String)
  | page (cookie : String)
  | changePasswordRequest (cookie : String) (currentPassword replacement : Bytes)
  | revokeAllRequest (cookie : String)
  | createTokenRequest (cookie : String) (currentPassword name : Bytes) (days : Int)
  | revokeTokenRequest (cookie : String) (tokenID : Int)
  | logoutRequest (cookie : String)

def finished {α : Type} (prog : M α) : M Unit := do
  let _ ← prog
  return ()

def call : Method → M Unit
  | .login cookie email password => Controller.login ext cookie email password
  | .rehashPassword id expectedHash replacementHash =>
    finished (Repository.rehashPassword id expectedHash replacementHash)
  | .changePassword id expectedVersion expectedHash replacementHash =>
    finished (Repository.changePassword id expectedVersion expectedHash replacementHash)
  | .revokeSessions id => finished (Repository.revokeSessions id)
  | .request email => PasswordRecovery.request ext email
  | .reset presented replacement => PasswordRecovery.reset ext presented replacement
  | .issue user name days => finished (PersonalTokens.issue user name days)
  | .authenticate presented => finished (PersonalTokens.authenticate ext presented)
  | .revoke userID tokenID => PersonalTokens.revoke userID tokenID
  | .me cookie => finished (require ext cookie)
  | .page cookie => finished (requireWeb ext cookie)
  | .changePasswordRequest cookie currentPassword replacement =>
    Controller.changePasswordRequest ext cookie currentPassword replacement
  | .revokeAllRequest cookie => Controller.revokeAllRequest ext cookie
  | .createTokenRequest cookie currentPassword name days =>
    Controller.createTokenRequest ext cookie currentPassword name days
  | .revokeTokenRequest cookie tokenID => Controller.revokeTokenRequest ext cookie tokenID
  | .logoutRequest cookie => Controller.logoutRequest ext cookie

end

abbrev Outcome := Option (Except Err Unit)

def program (ext : Externals) (method : Method) (_ : Outcome) : Prog Reply Outcome := do
  return some (← (call ext method).run)

end Goforge.Auth
