import Goforge.Schedule.Definition
import Goforge.Schedule.Successor

set_option autoImplicit false

namespace Goforge.Schedule

open GoString GoTime GoZone Strconv Text

inductive JobErr where
  | invalidName (name : Bytes)
  | invalidQueue (queue : Bytes)
  | maxAttempts
  | timeout
  | backoffEntries
  | backoffRange
  | backoffLeast
deriving DecidableEq, Repr

-- A job.Definition. Other packages have the zero value and what job.Define
-- returned.
structure Target where
  name : String
  policy : Policy
  defined : name = "" ∨ (Job.validName name = true ∧ Job.validQueue policy.queue = true)

def backoffErr (delay : Int) : Option JobErr :=
  if delay < 0 ∨ delay > 30 * day then some .backoffRange
  else if delay > 0 ∧ delay < millisecond then some .backoffLeast
  else none

-- job.Define
def jobDefine (name queue : Bytes) (maxAttempts timeout : Int) (backoff : List Int) : Except JobErr Target :=
  let name := trimSpace name
  let queue := if queue = [] then ascii "default" else queue
  let maxAttempts := if maxAttempts = 0 then 3 else maxAttempts
  let timeout := if timeout = 0 then 30 * second else timeout
  let backoff := if backoff = [] then [second, 5 * second, 30 * second] else backoff
  if named : Job.validName (text name) = true then
    if queued : Job.validQueue (text queue) = true then
      if maxAttempts < 1 ∨ maxAttempts > 1000 then .error .maxAttempts
      else if timeout < millisecond ∨ timeout > day then .error .timeout
      else if 1000 < backoff.length then .error .backoffEntries
      else
        match backoff.findSome? backoffErr with
        | some err => .error err
        | none => .ok ⟨text name, ⟨text queue, maxAttempts, timeout, backoff⟩, .inr ⟨named, queued⟩⟩
    else .error (.invalidQueue queue)
  else .error (.invalidName name)

-- A payload factory as Define sees it; build is whether there is one.
structure PayloadFactory where
  build : Bool
  strategy : Bytes
  staticJSON : Bytes
  err : Option Bytes

def staticPayloadStrategy : Bytes := ascii "static-json-v1"
def dynamicPayloadStrategy : Bytes := ascii "dynamic-factory-v1"

-- An Option can only be made by TimeZone and MisfireGrace.
inductive ScheduleOption where
  | unset
  | timeZone (name : Bytes)
  | misfireGrace (grace : Int)

structure DefinitionSettings where
  timeZone : Bytes
  location : Option Location
  misfireGrace : Int

inductive DefineErr where
  | invalidName (name : Bytes)
  | jobRequired
  | factory (err : Bytes)
  | factoryRequired
  | nilOption
  | zoneName
  | invalidZone (name : Bytes)
  | loadZone (name err : Bytes)
  | misfireGrace
  | cron (err : CronErr)
  | encode (err : Bytes)
deriving DecidableEq, Repr

structure FingerprintInput where
  version : Nat
  name : Bytes
  expression : Bytes
  timeZone : Bytes
  misfireGraceNS : Int
  jobName : String
  queue : String
  maxAttempts : Int
  timeoutNS : Int
  backoffNS : List Int
  payloadStrategy : Bytes
  staticPayload : Bytes
  overlapPolicy : String

-- What Define calls outside of the package: the cron library, the time zone
-- database, encoding/json and crypto/sha256.
structure Services (S : Type) where
  cron : CronLibrary S Location
  loadLocation : Bytes → Except Bytes Location
  marshal : FingerprintInput → Except Bytes Bytes
  sha256 : Bytes → Bytes
  digest : ∀ data, (sha256 data).length = 32

-- ^[A-Za-z][A-Za-z0-9._+-]*(/[A-Za-z0-9._+-]+)+$
def zoneChar : Regex := .oneOf [('A', 'Z'), ('a', 'z'), ('0', '9'), ('.', '.'), ('_', '_'), ('+', '+'), ('-', '-')]

def zonePart : Regex := .seq (.char '/') (.seq zoneChar (.star zoneChar))

def timeZonePattern : Regex :=
  .seq (.oneOf [('A', 'Z'), ('a', 'z')]) (.seq (.star zoneChar) (.seq zonePart (.star zonePart)))

section

variable {S : Type} (services : Services S)

def loadTimeZone (name : Bytes) : Except DefineErr (Option Location) :=
  if name ≠ trimSpace name ∨ name = [] ∨ name = ascii "Local" then .error .zoneName
  else if name = ascii "UTC" then .ok none
  else if 128 < name.length ∨ timeZonePattern.accepts (text name) = false then .error (.invalidZone name)
  else if (split (byte '/') name).any (fun part => decide (part = ascii ".") || decide (part = ascii "..")) then
    .error (.invalidZone name)
  else
    match services.loadLocation name with
    | .error err => .error (.loadZone name err)
    | .ok location => .ok (some location)

def applyOption (settings : DefinitionSettings) : ScheduleOption → Except DefineErr DefinitionSettings
  | .unset => .error .nilOption
  | .timeZone name =>
    match loadTimeZone services name with
    | .error err => .error err
    | .ok location => .ok { settings with timeZone := name, location := location }
  | .misfireGrace grace =>
    if grace < minute ∨ grace > 365 * day ∨ grace % minute ≠ 0 then .error .misfireGrace
    else .ok { settings with misfireGrace := grace }

def applyOptions (settings : DefinitionSettings) : List ScheduleOption → Except DefineErr DefinitionSettings
  | [] => .ok settings
  | option :: rest =>
    match applyOption services settings option with
    | .error err => .error err
    | .ok changed => applyOptions changed rest

def defaultMisfireGrace : Int := 15 * minute

def defaultSettings : DefinitionSettings := ⟨ascii "UTC", none, defaultMisfireGrace⟩

def hexEncode (data : Bytes) : Bytes :=
  data.flatMap (fun b => [lowerHex (b.toNat / 16), lowerHex (b.toNat % 16)])

def definitionFingerprint (name expression : Bytes) (settings : DefinitionSettings) (target : Target)
    (factory : PayloadFactory) : Except DefineErr Bytes :=
  let input : FingerprintInput :=
    { version := 1
      name := name
      expression := expression
      timeZone := settings.timeZone
      misfireGraceNS := settings.misfireGrace
      jobName := target.name
      queue := target.policy.queue
      maxAttempts := target.policy.maxAttempts
      timeoutNS := target.policy.timeout
      backoffNS := target.policy.backoff
      payloadStrategy := factory.strategy
      staticPayload := factory.staticJSON
      overlapPolicy := overlapPolicy }
  match services.marshal input with
  | .error err => .error (.encode err)
  | .ok encoded => .ok (hexEncode (services.sha256 encoded))

def define (fuel : Nat) (name expression : Bytes) (target : Target) (factory : PayloadFactory)
    (options : List ScheduleOption) : Option (Except DefineErr Definition) :=
  if name ≠ trimSpace name ∨ name = [] ∨ 128 < name.length ∨ Job.jobNamePattern.accepts (text name) = false then
    some (.error (.invalidName name))
  else if target.name = "" then some (.error .jobRequired)
  else
    match factory.err with
    | some err => some (.error (.factory err))
    | none =>
      if factory.build = false ∨
        (factory.strategy ≠ staticPayloadStrategy ∧ factory.strategy ≠ dynamicPayloadStrategy) then
        some (.error .factoryRequired)
      else
        match applyOptions services defaultSettings options with
        | .error err => some (.error err)
        | .ok settings =>
          match parseCron services.cron fuel expression settings.location with
          | none => none
          | some (.error err) => some (.error (.cron err))
          | some (.ok parsed) =>
            match definitionFingerprint services name parsed.canonical settings target factory with
            | .error err => some (.error err)
            | .ok fingerprint =>
              some (.ok
                { name := text name
                  expression := text parsed.canonical
                  timeZone := text settings.timeZone
                  misfireGrace := settings.misfireGrace
                  jobName := target.name
                  policy := target.policy
                  fingerprint := text fingerprint
                  next := fun t => (parsed.next services.cron ⟨t, none⟩).instant })

end

end Goforge.Schedule
