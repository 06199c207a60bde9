import Goforge.Session.World

set_option autoImplicit false

namespace Goforge.Sessions

open GoTime Interleave Names

-- The store reports what it did and generated ids never repeat.
def orderly : Surroundings := ⟨false, false⟩

def Loadable (s : Shared) (id : String) : Prop := s.rows.live s.clock id ≠ none

structure Registered (s : Shared) : Prop where
  stored : ∀ id, s.rows id ≠ none → id ∈ s.ids.stored
  ids : s.ids.Sound

structure Undisturbed (party : Nat) (s t : Shared) : Prop where
  ids : Pool.Kept party s.ids t.ids
  dead : ∀ id ∈ s.ids.stored, ¬ Loadable s id → ¬ Loadable t id

def resurrectionRules : Rules Shared Nat where
  inv := Registered
  rely := Undisturbed
  refl party s := ⟨kept_refl party s.ids, fun _ _ dead => dead⟩
  trans _ _ _ _ first second :=
    ⟨kept_trans first.ids second.ids,
      fun id member dead => second.dead id (first.ids.stored id member) (first.dead id member dead)⟩

structure SessionHeld (party : Nat) (s : Shared) (session : Session) : Prop where
  persisted : session.persistedID ≠ "" → session.persistedID ∈ s.ids.stored
  fresh : session.id ≠ "" → session.id ≠ session.persistedID → s.ids.Reserved party session.id
  flagged : session.createOnMissingRotation = true → session.staged = some .regenerateOrCreate

variable {party : Nat} {s t : Shared} {id : String} {rows : Rows} {now : Int} {call : StoreCall} {reply : call.Reply}

theorem held_undisturbed {session : Session} (held : SessionHeld party s session) (others : Undisturbed party s t) :
    SessionHeld party t session where
  persisted named := others.ids.stored _ (held.persisted named)
  fresh named apart := reserved_kept (held.fresh named apart) others.ids
  flagged := held.flagged

def Entitled (party : Nat) (s : Shared) : Question → Prop
  | .store call => ∀ id ∈ call.stores, s.ids.Reserved party id
  | _ => True

theorem set_live (rows : Rows) (now : Int) {other : String} (row : Option Row) (apart : other ≠ id) :
    (rows.set id row).live now other = rows.live now other := by
  unfold Rows.live Rows.set
  rw [if_neg apart]

theorem set_none_live (id : String) {other : String} (dead : rows.live now other = none) :
    (rows.set id none).live now other = none := by
  by_cases same : other = id
  · exact live_none now (if_pos same)
  · rw [set_live rows now none same, dead]

theorem store_step_dead {next : Rows} (step : StoreStep now rows call reply next) (unstored : id ∉ call.stores)
    (dead : rows.live now id = none) : next.live now id = none := by
  cases step with
  | created other row _ =>
    have apart : id ≠ other := fun same => unstored (by simp [StoreCall.stores, same])
    rw [set_live rows now _ apart, dead]
  | updated other old row live =>
    have apart : id ≠ other := fun same => by rw [← same, dead] at live; cases live
    rw [set_live rows now _ apart, dead]
  | rotated oldID newID old row _ _ =>
    have apart : id ≠ newID := fun same => unstored (by simp [StoreCall.stores, same])
    exact set_none_live oldID (by rw [set_live rows now _ apart, dead])
  | deleted other => exact set_none_live other dead
  | _ => exact dead

theorem store_step_stored {next : Rows} (step : StoreStep now rows call reply next) (present : next id ≠ none) :
    rows id ≠ none ∨ (call.succeeded reply = true ∧ id ∈ call.stores) := by
  have set_present : ∀ (before : Rows) other row, (before.set other row) id ≠ none → before id ≠ none ∨ id = other := by
    intro before other row here
    by_cases same : id = other
    · exact .inr same
    · exact .inl (by simpa [Rows.set, same] using here)
  have dropped : ∀ (before : Rows) other, (before.set other none) id ≠ none → before id ≠ none := by
    intro before other here none
    unfold Rows.set at here
    split at here
    · exact here rfl
    · exact here none
  cases step with
  | created other row _ =>
    exact (set_present rows other _ present).imp_right (fun same => ⟨rfl, by simp [StoreCall.stores, same]⟩)
  | updated other old row live =>
    refine .inl ((set_present rows other _ present).elim (fun here => here) ?_)
    rintro rfl
    exact live_present live
  | rotated oldID newID old row _ _ =>
    exact (set_present rows newID _ (dropped _ oldID present)).imp_right
      (fun same => ⟨rfl, by simp [StoreCall.stores, same]⟩)
  | deleted other => exact .inl (dropped rows other present)
  | _ => exact .inl present

theorem unchanged_undisturbed (t : Shared) (registered : Registered s) (rows : t.rows = s.rows)
    (clock : t.clock = s.clock) (ids : t.ids = s.ids) : Registered t ∧ ∀ party, Undisturbed party s t := by
  obtain ⟨stored, sound⟩ := registered
  refine ⟨⟨?_, ?_⟩, fun party => ⟨?_, ?_⟩⟩
  · rwa [rows, ids]
  · rwa [ids]
  · rw [ids]
    exact kept_refl party s.ids
  · unfold Loadable
    rw [rows, clock]
    exact fun _ _ dead => dead

def newborn : (question : Question) → Reply question → List String
  | .store call, reply => if call.succeeded reply then call.stores else []
  | _, _ => []

theorem newborn_stores (member : id ∈ newborn (.store call) reply) : id ∈ call.stores := by
  simp only [newborn] at member
  split at member
  · exact member
  · cases member

theorem store_answer_registered (answer : StoreAnswer orderly s call reply t) (registered : Registered s)
    (entitled : ∀ id ∈ call.stores, s.ids.Reserved party id) :
    Registered t ∧ ∀ other, other ≠ party ∨ newborn (.store call) reply = [] → Undisturbed other s t := by
  cases answer with
  | lost _ _ _ allowed _ => cases allowed
  | failed text =>
    obtain ⟨kept, others⟩ := unchanged_undisturbed { s with writes := call.row ++ s.writes } registered rfl rfl rfl
    exact ⟨kept, fun other _ => others other⟩
  | answered reply rows step =>
    have reserved : ∀ id ∈ newborn (.store call) reply, s.ids.Reserved party id :=
      fun id member => entitled id (newborn_stores member)
    refine ⟨⟨?_, store_sound party registered.ids reserved⟩, fun other apart => ⟨?_, ?_⟩⟩
    · intro id present
      rcases store_step_stored step present with old | ⟨ok, new⟩
      · exact List.mem_append_right _ (registered.stored id old)
      · simp only [ok, if_true]
        exact List.mem_append_left _ new
    · exact store_kept party reserved apart
    · intro id member dead
      have unstored : id ∉ call.stores := fun here => (entitled id here).1 member
      exact not_not.mpr (store_step_dead step unstored (not_not.mp dead))

theorem answer_registered {question : Question} {reply : Reply question}
    (answer : answers orderly s party question reply t) (registered : Registered s)
    (entitled : Entitled party s question) :
    Registered t ∧ ∀ other, other ≠ party ∨ newborn question reply = [] → Undisturbed other s t := by
  have unchanged : ∀ u : Shared, u.rows = s.rows → u.clock = s.clock → u.ids = s.ids →
      Registered u ∧ ∀ other, other ≠ party ∨ newborn question reply = [] → Undisturbed other s u := by
    intro u rows clock ids
    obtain ⟨kept, others⟩ := unchanged_undisturbed u registered rows clock ids
    exact ⟨kept, fun other _ => others other⟩
  cases question with
  | store call => exact store_answer_registered answer registered entitled
  | newID =>
    cases reply with
    | none =>
      obtain rfl := answer
      exact unchanged _ rfl rfl rfl
    | some id =>
      obtain ⟨_, unique, rfl⟩ := answer
      refine ⟨⟨registered.stored, draw_sound party id registered.ids⟩, fun other _ => ⟨?_, ?_⟩⟩
      · exact draw_kept party other registered.ids (unique rfl)
      · exact fun _ _ dead => dead
  | marshal stored =>
    obtain ⟨_, rfl⟩ := answer
    exact unchanged _ rfl rfl rfl
  | issue issuedAt =>
    obtain ⟨_, rfl⟩ := answer
    exact unchanged _ rfl rfl rfl
  | _ =>
    obtain rfl := answer
    exact unchanged _ rfl rfl rfl

section

variable {α : Type}

variable {party : Nat} {s t : Shared} {id : String} {row : Row} {session : Session}

abbrev Holds (party : Nat) (post : Shared → α → Prop) (prog : M α) (s : Shared) : Prop :=
  Valid (world orderly) resurrectionRules party post prog s

def LoadedHeld (party : Nat) (s : Shared) (result : Except Err (Session × Nat)) : Prop :=
  ∀ session reading, result = .ok (session, reading) → SessionHeld party s session

def ClearedHeld (party : Nat) (session : Session) (s : Shared) (result : Except StoreErr Unit × Session) : Prop :=
  SessionHeld party s result.2 ∧ (session.id ≠ "" → ∀ done, result.1 = .ok done → result.2 = session.cleared)

theorem entitled_query {post : Shared → α → Prop} {question : Question} (next : Reply question → M α) (s : Shared)
    (entitled : Entitled party s question) (valid : ∀ later reply t, Undisturbed party s later → Registered later →
      answers orderly later party question reply t → (newborn question reply = [] → Undisturbed party s t) →
      Holds party post (next reply) t) :
    Holds party post (Prog.query question >>= next) s := by
  apply valid_query
  intro later others registered reply t answer
  have still : Entitled party later question := by
    cases question with
    | store call =>
      exact fun id stores => reserved_kept (entitled id stores) others.ids
    | _ => trivial
  obtain ⟨kept, guaranteed⟩ := answer_registered answer registered still
  refine ⟨kept, fun other apart => guaranteed other (.inl apart), valid later reply t others registered answer ?_⟩
  intro none
  exact resurrectionRules.trans party s later t others (guaranteed party (.inr none))

theorem quiet_query {post : Shared → α → Prop} {question : Question} {next : Reply question → M α}
    (quiet : ∀ call, question = .store call → call.stores = [])
    (valid : ∀ reply t, Undisturbed party s t → Holds party post (next reply) t) :
    Holds party post (Prog.query question >>= next) s := by
  refine entitled_query next s ?_ ?_
  · cases question with
    | store call =>
      intro id stores
      rw [quiet call rfl] at stores
      cases stores
    | _ => trivial
  · intro later reply t _ _ _ undisturbed
    refine valid reply t (undisturbed ?_)
    cases question with
    | store call => simp only [newborn, quiet call rfl, ite_self]
    | _ => rfl

theorem new_id_reserved (registered : Registered s) (answer : answers orderly s party .newID (some id) t) :
    t.ids.Reserved party id := by
  obtain ⟨_, unique, rfl⟩ := answer
  exact draw_reserved party registered.ids (unique rfl)

theorem fresh_held (party : Nat) (s : Shared) :
    Holds party (LoadedHeld party) fresh s := by
  refine entitled_query _ s trivial ?_
  intro later reply t _ registered answer _
  cases reply with
  | none => rintro _ _ ⟨⟩
  | some id =>
    have reserved := new_id_reserved registered answer
    refine quiet_query (by rintro _ ⟨⟩) ?_
    intro reading u first
    refine quiet_query (by rintro _ ⟨⟩) ?_
    intro number v second
    rintro _ _ ⟨⟩
    refine ⟨fun empty => absurd rfl empty, fun _ _ => ?_, (by rintro ⟨⟩)⟩
    exact reserved_kept (reserved_kept reserved first.ids) second.ids

theorem discard_held (party : Nat) (id : String) {failed : StoreErr → Err} (s : Shared) :
    Holds party (LoadedHeld party) (discard id failed) s := by
  refine quiet_query (by rintro _ ⟨⟩; rfl) ?_
  intro reply t _
  cases reply with
  | ok _ => exact fresh_held party t
  | error err =>
    cases err with
    | notFound => exact fresh_held party t
    | _ => rintro _ _ ⟨⟩

theorem stored_born {call : StoreCall} {reply : call.Reply} (answer : StoreAnswer orderly s call reply t)
    (ok : call.succeeded reply = true) {id : String} (stores : id ∈ call.stores) : id ∈ t.ids.stored := by
  obtain ⟨_, born, _⟩ := succeeded_step answer ok
  rw [born]
  exact List.mem_append_left _ stores

theorem found_born (registered : Registered s) (answer : StoreAnswer orderly s (.get id) (.ok row) t) :
    id ∈ t.ids.stored := by
  obtain ⟨step, born, _⟩ := succeeded_step answer rfl
  rw [born]
  generalize t.rows = rows at step
  cases step with
  | found _ _ live => exact List.mem_append_right _ (registered.stored id (live_present live))

theorem updated_loadable (answer : StoreAnswer orderly s (.update id row) (.ok ()) t) : Loadable s id := by
  obtain ⟨step, _⟩ := succeeded_step answer rfl
  generalize t.rows = rows at step
  cases step with
  | updated _ old _ live => simp [Loadable, live]

theorem rotated_loadable {oldID newID : String} (answer : StoreAnswer orderly s (.rotate oldID newID row) (.ok ()) t) :
    Loadable s oldID := by
  obtain ⟨step, _⟩ := succeeded_step answer rfl
  generalize t.rows = rows at step
  cases step with
  | rotated _ _ old _ live _ => simp [Loadable, live]

theorem load_held (policy : Policy) (party : Nat) (id : String) (s : Shared) :
    Holds party (LoadedHeld party) (load policy id) s := by
  unfold load
  split
  · exact fresh_held party s
  refine entitled_query _ s (by rintro _ ⟨⟩) ?_
  intro later reply t _ registered answer _
  cases reply with
  | error err =>
    cases err with
    | notFound => exact fresh_held party t
    | _ => rintro _ _ ⟨⟩
  | ok row =>
    have born := found_born registered answer
    simp only
    split
    · rintro _ _ ⟨⟩
    refine quiet_query (by rintro _ ⟨⟩) ?_
    intro reading u others
    split
    · exact discard_held party id u
    generalize (if isZero _ = true then (reading : Int) else _) = issuedAt
    split
    · exact discard_held party id u
    rintro _ _ ⟨⟩
    exact ⟨fun _ => others.ids.stored id born, fun _ apart => absurd rfl apart, (by rintro ⟨⟩)⟩

theorem cleared_held (party : Nat) (s : Shared) (session : Session) : SessionHeld party s session.cleared :=
  ⟨fun empty => absurd rfl empty, fun empty => absurd rfl empty, (by rintro ⟨⟩)⟩

theorem invalidate_held (held : SessionHeld party s session) :
    Holds party (ClearedHeld party session) (invalidate session) s := by
  unfold invalidate
  split
  · rename_i empty
    exact ⟨held, fun named => absurd empty named⟩
  split
  · exact ⟨cleared_held party s session, fun _ _ _ => rfl⟩
  refine quiet_query (by rintro _ ⟨⟩; rfl) ?_
  intro reply t others
  have kept := held_undisturbed held others
  cases reply with
  | ok _ => exact ⟨cleared_held party t session, fun _ _ _ => rfl⟩
  | error err =>
    cases err with
    | notFound => exact ⟨cleared_held party t session, fun _ _ _ => rfl⟩
    | _ => exact ⟨kept, (by rintro _ _ ⟨⟩)⟩

theorem expire_held (held : SessionHeld party s session) :
    Holds party (ClearedHeld party session) (expire session) s := by
  apply valid_bind
  refine valid_mono ?_ s (invalidate_held held)
  rintro t ⟨_ | done, result⟩ ⟨kept, cleared⟩
  · exact ⟨kept, (by rintro _ _ ⟨⟩)⟩
  · refine quiet_query (by rintro _ ⟨⟩) ?_
    intro _ u others
    exact ⟨held_undisturbed kept others, fun named _ _ => cleared named done rfl⟩

theorem issued_held (reading : Nat) (held : SessionHeld party s session) :
    Holds party
      (fun t result => SessionHeld party t result ∧ Undisturbed party s t ∧ result.id = session.id ∧
        result.persistedID = session.persistedID ∧
        result.cleared = ({ session with readAt := some reading } : Session).cleared ∧
        result.issuedAt = if isZero session.issuedAt then (reading : Int) else session.issuedAt)
      (issued session reading) s := by
  unfold issued
  split
  · refine quiet_query (by rintro _ ⟨⟩) ?_
    intro number t others
    obtain ⟨persisted, fresh, flagged⟩ := held_undisturbed held others
    exact ⟨⟨persisted, fresh, flagged⟩, others, rfl, rfl, rfl, rfl⟩
  · exact ⟨⟨held.persisted, held.fresh, held.flagged⟩, resurrectionRules.refl party s, rfl, rfl, rfl, rfl⟩

def Session.kept (session : Session) : Session :=
  { session with persistedID := session.id, createOnMissingRotation := false, oldFlash := ∅ }

theorem kept_held (party : Nat) (born : session.id ∈ s.ids.stored) : SessionHeld party s session.kept :=
  ⟨fun _ => born, fun _ apart => absurd rfl apart, (by rintro ⟨⟩)⟩

def Removed (s : Shared) (session : Session) : Prop :=
  session.persistedID ≠ "" ∧ ¬ Loadable s session.persistedID

theorem removed_undisturbed (held : SessionHeld party s session) (others : Undisturbed party s t)
    (removed : Removed s session) : Removed t session :=
  ⟨removed.1, others.dead _ (held.persisted removed.1) removed.2⟩

structure Persisted (party : Nat) (session : Session) (removed : Prop) (t : Shared) (result : Except StoreErr Unit) :
    Prop where
  ok : result = .ok () → SessionHeld party t session.kept
  error : ∀ err, result = .error err → SessionHeld party t session
  recreated : removed → result = .ok () → session.createOnMissingRotation = true ∧ session.id ≠ session.persistedID

theorem persist_held {row : Row} (named : session.id ≠ "") (held : SessionHeld party s session) :
    Holds party (Persisted party session (Removed s session))
      (persist session row) s := by
  have creates : ∀ t, SessionHeld party t session → session.id ≠ session.persistedID →
      (Removed s session → session.createOnMissingRotation = true) →
      Holds party (Persisted party session (Removed s session))
        (create session.id row) t := by
    intro t held apart allowed
    have free := held.fresh named apart
    refine entitled_query Prog.ret t ?_ ?_
    · intro id stores
      rw [List.mem_singleton.mp stores]
      exact free
    intro later reply u others _ answer quiet
    refine ⟨?_, ?_, fun removed _ => ⟨allowed removed, apart⟩⟩
    · rintro rfl
      exact kept_held party (stored_born answer rfl List.mem_cons_self)
    · rintro err rfl
      exact held_undisturbed held (quiet rfl)
  unfold persist
  split
  · rename_i unsaved
    exact creates s held (by rw [unsaved]; exact named) (fun removed => absurd unsaved removed.1)
  rename_i saved
  split
  · rename_i same
    refine entitled_query Prog.ret s (by rintro _ ⟨⟩) ?_
    intro later reply t others _ answer quiet
    have undisturbed : Undisturbed party s t := quiet (by simp [newborn, StoreCall.stores])
    refine ⟨?_, fun _ _ => held_undisturbed held undisturbed, ?_⟩
    · rintro _
      exact kept_held party (same ▸ (held_undisturbed held undisturbed).persisted saved)
    · rintro removed rfl
      have loadable := updated_loadable answer
      exact absurd (same ▸ loadable) (removed_undisturbed held others removed).2
  · rename_i apart
    have apart : session.id ≠ session.persistedID := fun same => apart same.symm
    refine entitled_query _ s ?_ ?_
    · intro id stores
      rw [List.mem_singleton.mp stores]
      exact held.fresh named apart
    intro later reply t others _ answer quiet
    cases reply with
    | error err =>
      have still := held_undisturbed held (quiet rfl)
      split
      · rename_i missing
        exact creates t still apart (fun _ => missing.1)
      · exact ⟨(by rintro ⟨⟩), fun _ _ => still, (by rintro _ ⟨⟩)⟩
    | ok done =>
      rw [if_neg (by simp)]
      refine ⟨fun _ => ?_, (by rintro _ ⟨⟩), fun removed _ => ?_⟩
      · exact kept_held party (stored_born answer rfl List.mem_cons_self)
      · have loadable := rotated_loadable answer
        exact absurd loadable (removed_undisturbed held others removed).2

theorem issued_expired {policy : Policy} {dated : Session} {reading : Nat}
    (time : dated.issuedAt = if isZero session.issuedAt then (reading : Int) else session.issuedAt)
    (passed : absoluteExpired policy dated.issuedAt reading = true) :
    absoluteExpired policy session.issuedAt reading = true := by
  rw [time] at passed
  split at passed
  · simp [absoluteExpired] at passed
    omega
  · exact passed

-- The reading is the one the Save took of its clock.
def ClearedLate (policy : Policy) (session result : Session) : Prop :=
  ∃ reading : Nat, result = ({ session with readAt := some reading } : Session).cleared ∧
    absoluteExpired policy session.issuedAt reading = true

structure Saved (policy : Policy) (party : Nat) (session : Session) (removed : Prop) (t : Shared)
    (result : Except Err Unit × Session) : Prop where
  held : SessionHeld party t result.2
  recreated : removed → result.1 = .ok () → ClearedLate policy session result.2 ∨
    (session.staged = some .regenerateOrCreate ∧ result.2.id = session.id ∧ session.id ≠ "" ∧
      session.id ≠ session.persistedID)

theorem save_held (policy : Policy) (written : Bool) (held : SessionHeld party s session) :
    Holds party (Saved policy party session (Removed s session))
      (save policy written session) s := by
  unfold save
  split
  · exact ⟨held, (by rintro _ ⟨⟩)⟩
  rename_i named
  split
  · exact ⟨held, (by rintro _ ⟨⟩)⟩
  refine quiet_query (by rintro _ ⟨⟩) ?_
  intro reading t first
  apply valid_bind
  refine valid_mono ?_ t (issued_held reading (held_undisturbed held first))
  rintro t' dated ⟨still, second, id, persistedID, same, time⟩
  have later := resurrectionRules.trans party s t t' first second
  have removedLater : Removed s session → Removed t' dated := by
    intro removed
    obtain ⟨nonempty, dead⟩ := removed_undisturbed held later removed
    exact ⟨persistedID ▸ nonempty, persistedID ▸ dead⟩
  split
  · rename_i passed
    have late := issued_expired time passed
    apply valid_bind
    refine valid_mono ?_ t' (expire_held still)
    rintro u ⟨_ | done, result⟩ ⟨kept, cleared⟩
    · exact ⟨kept, (by rintro _ ⟨⟩)⟩
    · exact ⟨kept, fun _ _ => .inl ⟨reading, (cleared (id ▸ named) done rfl).trans same, late⟩⟩
  refine quiet_query (by rintro _ ⟨⟩) ?_
  intro encoded u third
  have there := held_undisturbed still third
  cases encoded with
  | none => exact ⟨there, (by rintro _ ⟨⟩)⟩
  | some encoded =>
    apply valid_bind
    refine valid_mono ?_ u (persist_held (id ▸ named) there)
    intro v result persisted
    cases result with
    | error err => exact ⟨persisted.error err rfl, (by rintro _ ⟨⟩)⟩
    | ok done =>
      refine quiet_query (by rintro _ ⟨⟩) ?_
      intro _ x last
      refine ⟨held_undisturbed (persisted.ok rfl) last, fun removed _ => .inr ?_⟩
      obtain ⟨flag, apart⟩ :=
        persisted.recreated (removed_undisturbed still third (removedLater removed)) rfl
      have staged : dated.staged = session.staged := (congrArg Session.staged same :)
      exact ⟨staged ▸ still.flagged flag, id, named, id ▸ persistedID ▸ apart⟩

theorem regenerate_held (rotation : Rotation) (held : SessionHeld party s session) :
    Holds party (fun t result => SessionHeld party t result.2)
      (regenerate rotation session) s := by
  refine entitled_query _ s trivial ?_
  intro later reply t _ registered answer quiet
  have still := held_undisturbed held (quiet rfl)
  cases reply with
  | none => exact still
  | some id =>
    have reserved := new_id_reserved registered answer
    exact ⟨still.persisted, fun _ _ => reserved, fun flag => congrArg some (of_decide_eq_true flag)⟩

theorem destroy_held (written : Bool) (held : SessionHeld party s session) :
    Holds party (fun t result => SessionHeld party t result.2)
      (destroy written session) s := by
  unfold destroy
  split
  · exact held
  apply valid_bind
  refine valid_mono ?_ s (expire_held held)
  rintro t ⟨_ | _, result⟩ ⟨kept, _⟩ <;> exact kept

theorem invalidate_quietly_held (written : Bool) (held : SessionHeld party s session) :
    Holds party (fun t result => SessionHeld party t result.2)
      (invalidateQuietly written session) s := by
  unfold invalidateQuietly
  split
  · exact held
  apply valid_bind
  refine valid_mono ?_ s (invalidate_held held)
  rintro t ⟨_ | _, result⟩ ⟨kept, _⟩
  · exact kept
  · refine quiet_query (by rintro _ ⟨⟩) ?_
    intro _ u others
    exact held_undisturbed kept others

def LocalHeld (party : Nat) (s : Shared) (state : Local) : Prop :=
  ∀ session, state.session = some session → SessionHeld party s session

theorem finish_held (success : Outcome) {result : Except Err Unit × Session} (held : SessionHeld party s result.2) :
    LocalHeld party s (finish success result) := by
  rcases result with ⟨_ | _, session⟩
  · rintro _ ⟨⟩
    exact held
  · rintro _ ⟨⟩
    exact held

theorem program_held (policy : Policy) (method : Method) {state : Local} (held : LocalHeld party s state) :
    Holds party (LocalHeld party) (program policy method state) s := by
  obtain ⟨session, outcome⟩ := state
  have finished : ∀ (success : Outcome) (prog : M (Except Err Unit × Session)),
      Holds party (fun t result => SessionHeld party t result.2) prog s →
      Holds party (LocalHeld party)
        (prog >>= fun result => pure (finish success result)) s := by
    intro success prog valid
    apply valid_bind
    exact valid_mono (fun t result kept => finish_held success kept) s valid
  have empty : ∀ outcome t, LocalHeld party t ⟨none, outcome⟩ := by
    rintro outcome t _ ⟨⟩
  have renamed : ∀ session changed : Session, SessionHeld party s session → changed.id = session.id →
      changed.persistedID = session.persistedID →
      changed.createOnMissingRotation = session.createOnMissingRotation → changed.staged = session.staged →
      SessionHeld party s changed := by
    rintro session changed ⟨persisted, fresh, flagged⟩ id persistedID flag staged
    refine ⟨?_, ?_, ?_⟩
    · rwa [persistedID]
    · rwa [id, persistedID]
    · rwa [flag, staged]
  cases method with
  | load id =>
    apply valid_bind
    refine valid_mono ?_ s (load_held policy party id s)
    rintro t (err | ⟨loaded, reading⟩) post
    · exact empty _ t
    · rintro _ ⟨⟩
      exact post loaded reading rfl
  | put key encoded =>
    cases session with
    | none => exact held
    | some session =>
      refine finish_held _ ?_
      cases encoded <;> exact renamed session _ (held session rfl) rfl rfl rfl rfl
  | flash key encoded =>
    cases session with
    | none => exact held
    | some session =>
      refine finish_held _ ?_
      cases encoded <;> exact renamed session _ (held session rfl) rfl rfl rfl rfl
  | forget key =>
    cases session with
    | none => exact held
    | some session =>
      rintro _ ⟨⟩
      exact renamed session _ (held session rfl) rfl rfl rfl rfl
  | save written =>
    cases session with
    | none => exact empty _ s
    | some session =>
      refine finished .saved _ ?_
      exact valid_mono (fun t result saved => saved.held) s
        (save_held policy written (held session rfl))
  | regenerate rotation =>
    cases session with
    | none => exact empty _ s
    | some session => exact finished .done _ (regenerate_held rotation (held session rfl))
  | destroy written =>
    cases session with
    | none =>
      cases written with
      | true => exact empty _ s
      | false => exact quiet_query (by rintro _ ⟨⟩) (fun _ t _ => empty _ t)
    | some session => exact finished .done _ (destroy_held written (held session rfl))
  | invalidate written =>
    cases session with
    | none =>
      cases written with
      | true => exact empty _ s
      | false => exact quiet_query (by rintro _ ⟨⟩) (fun _ t _ => empty _ t)
    | some session => exact finished .done _ (invalidate_quietly_held written (held session rfl))

theorem drift_undisturbed (registered : Registered s) (drifted : drifts s t) :
    Registered t ∧ ∀ party, Undisturbed party s t := by
  obtain ⟨rows, clock, later, purged, rfl⟩ := drifted
  refine ⟨⟨?_, registered.ids⟩, fun party => ⟨kept_refl party s.ids, ?_⟩⟩
  · intro id present
    rcases purged id with same | ⟨gone, _⟩
    · exact registered.stored id (same ▸ present)
    · exact absurd gone present
  · intro id _ dead
    have gone := not_not.mp dead
    apply not_not.mpr
    rcases purged id with same | ⟨gone, _⟩
    · cases found : s.rows id with
      | none => exact live_none _ (same.trans found)
      | some row =>
        have expired : row.current s.clock = false := by
          cases current : row.current s.clock with
          | false => rfl
          | true => rw [live_some _ found current] at gone; cases gone
        refine live_expired _ (same.trans found) ?_
        unfold Row.current at expired ⊢
        simp only [decide_eq_false_iff_not] at expired ⊢
        omega
    · exact live_none _ gone

theorem resurrection_sound (policy : Policy) :
    Sound (world orderly) resurrectionRules (program policy) (fun _ => idleLocal) LocalHeld where
  starts s initial := by
    refine ⟨⟨?_, initial.known, ?_⟩, fun party => by rintro _ ⟨⟩⟩
    · intro id present
      cases found : s.rows id with
      | none => exact absurd found present
      | some row => exact (initial.legacy id row found).2.2
    · intro id party owned
      rw [initial.unowned id] at owned
      cases owned
  drifts s t registered drifted := drift_undisturbed registered drifted
  stable party s t state held others := fun session is =>
    held_undisturbed (held session is) others
  methods party s state method _ held := program_held policy method held

end

end Goforge.Sessions
