import Goforge.Lib.Names
import Goforge.Session.Manager

set_option autoImplicit false

namespace Goforge.Sessions

open GoTime Interleave Names

-- What the surroundings may do: a call that took effect may still report an
-- error, and the random source may repeat an id.
structure Surroundings where
  lostReplies : Bool
  repeatedIDs : Bool

-- The clock is the store's. All other fields but the rows are ghost state: the
-- ids, the time each lineage was issued at, and the rows and cookies managers
-- wrote.
structure Shared where
  rows : Rows
  clock : Nat
  ids : Pool String Nat
  births : List Nat
  writes : List Row
  cookies : List Cookie

def StoreCall.row : StoreCall → List Row
  | .create _ row => [row]
  | .update _ row => [row]
  | .rotate _ _ row => [row]
  | _ => []

def StoreCall.stores : StoreCall → List String
  | .create id _ => [id]
  | .rotate _ newID _ => [newID]
  | _ => []

def StoreCall.fail : (call : StoreCall) → StoreErr → call.Reply
  | .get _, err => .error err
  | .create _ _, err => .error err
  | .update _ _, err => .error err
  | .rotate _ _ _, err => .error err
  | .delete _, err => .error err

def StoreCall.succeeded : (call : StoreCall) → call.Reply → Bool
  | .get _, reply => reply.isOk
  | .create _ _, reply => reply.isOk
  | .update _ _, reply => reply.isOk
  | .rotate _ _ _, reply => reply.isOk
  | .delete _, reply => reply.isOk

-- The call as the store's contract has it; a failure that leaves the rows as
-- they were; a failure reported after the call took effect.
inductive StoreAnswer (around : Surroundings) (s : Shared) (call : StoreCall) : call.Reply → Shared → Prop where
  | answered (reply : call.Reply) (rows : Rows) (step : StoreStep s.clock s.rows call reply rows) :
      StoreAnswer around s call reply
        { s with
          rows := rows
          ids := s.ids.store (if call.succeeded reply then call.stores else [])
          writes := call.row ++ s.writes }
  | failed (text : String) :
      StoreAnswer around s call (call.fail (.other text)) { s with writes := call.row ++ s.writes }
  | lost (text : String) (reply : call.Reply) (rows : Rows) (allowed : around.lostReplies = true)
      (step : StoreStep s.clock s.rows call reply rows) :
      StoreAnswer around s call (call.fail (.other text))
        { s with
          rows := rows
          ids := s.ids.store (if call.succeeded reply then call.stores else [])
          writes := call.row ++ s.writes }

def answers (around : Surroundings) (s : Shared) (party : Nat) :
    (question : Question) → Reply question → Shared → Prop
  | .store call, reply, t => StoreAnswer around s call reply t
  | .now, _, t => t = s
  | .newID, none, t => t = s
  | .newID, some id, t => id ≠ "" ∧ (around.repeatedIDs = false → id ∉ s.ids.drawn) ∧
      t = { s with ids := s.ids.draw party id }
  | .marshal stored, reply, t => (reply = none ∨ reply = some (.payload stored.encoded)) ∧ t = s
  | .setCookie cookie, _, t => t = { s with cookies := cookie :: s.cookies }
  | .removeCookie, _, t => t = s
  | .issue issuedAt, lineage, t => lineage = s.births.length ∧ t = { s with births := s.births ++ [issuedAt] }

theorem succeeded_step {around : Surroundings} {s t : Shared} {call : StoreCall} {reply : call.Reply}
    (answer : StoreAnswer around s call reply t) (ok : call.succeeded reply = true) :
    StoreStep s.clock s.rows call reply t.rows ∧ t.ids = s.ids.store call.stores ∧ t.cookies = s.cookies := by
  cases answer with
  | answered reply rows step => exact ⟨step, by simp only [ok, if_true], rfl⟩
  | _ => cases call <;> cases ok

def Encoded.legacy : Encoded → Prop
  | .payload stored => isZero stored.issuedAt = true
  | .malformed _ => True

structure Initial (s : Shared) : Prop where
  legacy : ∀ id row, s.rows id = some row → row.value.legacy ∧ row.lineage = none ∧ id ∈ s.ids.stored
  known : ∀ id ∈ s.ids.stored, id ∈ s.ids.drawn
  unowned : ∀ id, s.ids.owner id = none
  unissued : s.births = []
  unwritten : s.writes = []
  unsent : s.cookies = []

def drifts (s t : Shared) : Prop :=
  ∃ rows clock, s.clock ≤ clock ∧ Purged s.clock s.rows rows ∧ t = { s with rows := rows, clock := clock }

def world (around : Surroundings) : World Shared Nat Question Reply := ⟨Initial, answers around, drifts⟩

def idleLocal : Local := ⟨none, .idle⟩

def requests (around : Surroundings) (policy : Policy) :
    Machine.System (Config Shared Nat Reply Local) (Label Nat Method) :=
  interleaved (world around) (program policy) (fun _ => idleLocal)

-- One way to answer that the contract allows, to replay concrete runs with.
def contractReply (now : Int) (rows : Rows) : (call : StoreCall) → call.Reply × Rows
  | .get id =>
    match rows.live now id with
    | none => (.error .notFound, rows)
    | some row => (.ok row, rows)
  | .create id row =>
    match rows.live now id with
    | none => (.ok (), rows.set id (some row))
    | some _ => (.error .alreadyExists, rows)
  | .update id row =>
    match rows.live now id with
    | none => (.error .notFound, rows)
    | some _ => (.ok (), rows.set id (some row))
  | .rotate oldID newID row =>
    match rows.live now oldID, rows.live now newID with
    | none, _ => (.error .notFound, rows)
    | some _, none => (.ok (), (rows.set newID (some row)).set oldID none)
    | some _, some _ => (.error .alreadyExists, rows)
  | .delete id => (.ok (), rows.set id none)

theorem live_present {rows : Rows} {now : Int} {id : String} {row : Row} (live : rows.live now id = some row) :
    rows id ≠ none := by
  intro none
  rw [live_none now none] at live
  cases live

theorem contract_reply_step (now : Int) (rows : Rows) (call : StoreCall) :
    StoreStep now rows call (contractReply now rows call).1 (contractReply now rows call).2 := by
  cases call with
  | get id =>
    cases live : rows.live now id with
    | none => simpa only [contractReply, live] using StoreStep.missing id live
    | some row => simpa only [contractReply, live] using StoreStep.found id row live
  | create id row =>
    cases live : rows.live now id with
    | none => simpa only [contractReply, live] using StoreStep.created id row live
    | some old => simpa only [contractReply, live] using StoreStep.taken id row (live_present live)
  | update id row =>
    cases live : rows.live now id with
    | none => simpa only [contractReply, live] using StoreStep.stale id row live
    | some old => simpa only [contractReply, live] using StoreStep.updated id old row live
  | rotate oldID newID row =>
    cases live : rows.live now oldID with
    | none => simpa only [contractReply, live] using StoreStep.replaced oldID newID row live
    | some old =>
      cases free : rows.live now newID with
      | none => simpa only [contractReply, live, free] using StoreStep.rotated oldID newID old row live free
      | some other =>
        simpa only [contractReply, live, free] using
          StoreStep.collided oldID newID old row live (live_present free)
  | delete id => exact .deleted id

def longest : List String → Nat
  | [] => 0
  | id :: rest => max id.length (longest rest)

def longerID (used : List String) : String := String.ofList (List.replicate (longest used + 1) 'x')

theorem longest_bounds {used : List String} {id : String} (member : id ∈ used) : id.length ≤ longest used := by
  induction used with
  | nil => cases member
  | cons first rest ih =>
    rw [longest]
    rcases List.mem_cons.mp member with rfl | later
    · omega
    · have further := ih later
      omega

theorem longer_id_length (used : List String) : (longerID used).length = longest used + 1 := by
  simp [longerID]

theorem longer_id_fresh (used : List String) : longerID used ∉ used := by
  intro member
  have bound := longest_bounds member
  rw [longer_id_length] at bound
  omega

theorem longer_id_nonempty (used : List String) : longerID used ≠ "" := by
  intro empty
  have length := longer_id_length used
  rw [empty] at length
  simp at length

def sampleAnswer (s : Shared) (party : Nat) : (question : Question) → Reply question × Shared
  | .store call =>
    let (reply, rows) := contractReply s.clock s.rows call
    (reply, { s with
      rows := rows
      ids := s.ids.store (if call.succeeded reply then call.stores else [])
      writes := call.row ++ s.writes })
  | .now => (100 * s.cookies.length, s)
  | .newID =>
    (some (longerID s.ids.drawn), { s with ids := s.ids.draw party (longerID s.ids.drawn) })
  | .marshal stored => (some (.payload stored.encoded), s)
  | .setCookie cookie => ((), { s with cookies := cookie :: s.cookies })
  | .removeCookie => ((), s)
  | .issue issuedAt => (s.births.length, { s with births := s.births ++ [issuedAt] })

theorem sample_answer_allowed (around : Surroundings) (s : Shared) (party : Nat) (question : Question) :
    (world around).answers s party question (sampleAnswer s party question).1 (sampleAnswer s party question).2 := by
  cases question with
  | store call => exact .answered _ _ (contract_reply_step s.clock s.rows call)
  | newID => exact ⟨longer_id_nonempty s.ids.drawn, fun _ => longer_id_fresh s.ids.drawn, rfl⟩
  | marshal stored => exact ⟨.inr rfl, rfl⟩
  | issue issuedAt => exact ⟨rfl, rfl⟩
  | _ => rfl

def emptyShared : Shared := ⟨fun _ => none, 0, .empty, [], [], []⟩

theorem empty_initial : Initial emptyShared := ⟨(by rintro _ _ ⟨⟩), (by rintro _ ⟨⟩), fun _ => rfl, rfl, rfl, rfl⟩

def shortPolicy : Policy := ⟨100, 150, by decide, by decide, by decide⟩

def samplePlay (policy : Policy) (moves : List (Nat × Method)) : Config Shared Nat Reply Local :=
  play sampleAnswer (program policy) moves ⟨emptyShared, fun _ => .ret idleLocal⟩

theorem sample_play_reached (around : Surroundings) (policy : Policy) (moves : List (Nat × Method)) :
    Machine.Reach (requests around policy) (samplePlay policy moves) :=
  play_reached (sample_answer_allowed around) empty_initial moves

theorem sample_call_run (around : Surroundings) {policy : Policy} {moves : List (Nat × Method)} {party : Nat}
    (method : Method) {state : Local} (idle : (samplePlay policy moves).progs party = .ret state) :
    ∃ labels, (∀ other, .begins party other ∉ labels) ∧
      Machine.Run (requests around policy) (samplePlay policy moves) (.begins party method :: labels)
        (play sampleAnswer (program policy) [(party, method)] (samplePlay policy moves)) :=
  call_run (fun s question => sample_answer_allowed around s party question) method idle

end Goforge.Sessions
