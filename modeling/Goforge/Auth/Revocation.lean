import Goforge.Auth.Generations

set_option autoImplicit false

namespace Goforge.Auth

open GoString Interleave Machine Names Sessions Sql

section

variable {ext : Externals} {around : Sessions.Surroundings} {α β : Type} {party : Nat}

def Safe (ext : Externals) (around : Sessions.Surroundings) (party : Nat) (post : Shared → α → Prop) (prog : M α)
    (s : Shared) : Prop :=
  ∀ origin, Later origin s → Valid (world ext around) generationRules party
    (fun t result => Later origin t ∧ ∀ value, result = .ok value → post t value) prog.run s

abbrev Harmless (ext : Externals) (around : Sessions.Surroundings) (party : Nat) (prog : M α) (s : Shared) : Prop :=
  Safe ext around party (fun _ _ => True) prog s

variable {post : Shared → β → Prop}

variable {s : Shared} {prog : M α}

theorem safe_pure {value : β} (holds : post s value) : Safe ext around party post (pure value) s := by
  refine fun _ later => ⟨later, ?_⟩
  rintro _ ⟨⟩
  exact holds

theorem harmless_pure (value : α) (s : Shared) : Harmless ext around party (pure value) s :=
  safe_pure trivial

theorem harmless_throw (err : Err) (s : Shared) : Safe ext around party post (throw err : M β) s :=
  fun _ later => ⟨later, by rintro _ ⟨⟩⟩

theorem safe_bind {middle : Shared → α → Prop} (next : α → M β) {s : Shared}
    (first : Safe ext around party middle prog s)
    (second : ∀ value t, Later s t → middle t value → Safe ext around party post (next value) t) :
    Safe ext around party post (prog >>= next) s := by
  intro origin before
  refine valid_except (valid_mono ?_ s (first s (later_refl s)))
  rintro t result ⟨later, holds⟩
  have further := later_trans origin before later
  exact ⟨fun _ _ => ⟨further, by rintro _ ⟨⟩⟩, fun value ok => second value t later (holds value ok) origin further⟩

theorem harmless_bind {next : α → M β} (first : Harmless ext around party prog s)
    (second : ∀ value t, Later s t → Safe ext around party post (next value) t) :
    Safe ext around party post (prog >>= next) s :=
  safe_bind next first (fun value t later _ => second value t later)

theorem harmless_query {question : Question} {next : Reply question → M β} (sound : question.Sound party s)
    (valid : ∀ reply t, Later s t → Learned party s t question reply → Safe ext around party post (next reply) t) :
    Safe ext around party post (ask question >>= next) s := by
  intro origin before later others sane reply t answer
  have answered := question_answered ext around party t reply answer sane
    (sound_later sound others)
  have further := later_trans s others.1 answered.later
  refine ⟨answered.sane, fun other apart => ⟨answered.later, answered.kept other apart⟩, ?_⟩
  exact valid reply t further (learned_since others.1 answered.learned) origin (later_trans origin before further)

theorem harmless_embed (prog : Sessions.M α) (s : Shared) :
    Harmless ext around party (ExceptT.lift (prog.embed Question.session (fun _ reply => reply))) s := by
  intro origin before
  apply valid_bind
  refine valid_embed ?_ prog s ?_ (fun _ => ⟨before, fun _ _ => trivial⟩)
  · intro t u _ later others
    exact ⟨later_trans origin later.1 others.1, fun _ _ => trivial⟩
  · intro question t reply u sane answer
    have answered := question_answered ext around party u reply answer sane trivial
    obtain ⟨sessions, _, rfl⟩ := answer
    exact ⟨answered.sane, fun other => ⟨answered.later, kept_refl other t.selectors⟩⟩

theorem harmless_of_safe {prog : M β} (safe : Safe ext around party post prog s) :
    Harmless ext around party prog s := by
  intro origin before
  exact valid_mono (fun _ _ later => ⟨later.1, fun _ _ => trivial⟩) s (safe origin before)

theorem sessions_harmless {prog : Sessions.M (Except Sessions.Err α)} (s : Shared) :
    Harmless ext around party (sessions prog) s := by
  refine harmless_bind (harmless_embed prog s) ?_
  rintro (err | value) t _
  · exact harmless_throw _ t
  · exact harmless_pure _ t

theorem changing_harmless {prog : Sessions.M (Except Sessions.Err Unit × Session)} (s : Shared) :
    Harmless ext around party (changing prog) s := by
  refine harmless_bind (harmless_embed prog s) ?_
  rintro ⟨_ | _, session⟩ t _
  · exact harmless_throw _ t
  · exact harmless_pure _ t

theorem harmless_try (harmless : Harmless ext around party prog s) :
    Harmless ext around party (ExceptT.lift prog.run) s := by
  intro origin before
  apply valid_bind
  exact valid_mono (fun _ _ later => ⟨later.1, fun _ _ => trivial⟩) s (harmless origin before)

theorem turned_away (current : Session) {err : Err} (s : Shared) :
    Harmless ext around party (changing (invalidateQuietly false current) >>= fun _ => (throw err : M α)) s :=
  harmless_bind (changing_harmless s) (fun _ t _ => harmless_throw err t)

theorem credential_result_harmless (reply : Except Fault User) (s : Shared) :
    Harmless ext around party (credentialResult reply) s := by
  rcases reply with (_ | _ | _) | user
  · exact harmless_throw _ s
  · exact harmless_throw _ s
  · exact harmless_throw _ s
  · exact harmless_pure user s

theorem repository_rehash_harmless {id : Int} {expectedHash replacementHash : Bytes} (s : Shared) :
    Harmless ext around party (Repository.rehashPassword id expectedHash replacementHash) s :=
  harmless_query trivial (fun reply t _ _ => credential_result_harmless reply.1 t)

theorem change_safe (id expectedVersion : Int) (expectedHash replacementHash : Bytes) (s : Shared) :
    Safe ext around party (fun t _ => Committed party t.commits s.commits.length
        (fun commit => commit.account = id ∧ commit.cause = .changed expectedVersion))
      (Repository.changePassword id expectedVersion expectedHash replacementHash) s := by
  refine harmless_query trivial ?_
  rintro ⟨err | user, seen⟩ t _ learned
  · cases err <;> exact harmless_throw _ t
  obtain ⟨current, committed⟩ := learned user rfl
  refine harmless_query current ?_
  intro _ u later _
  exact safe_pure (committed_later later.commits (Nat.le_refl _) committed)

theorem repository_change_harmless {id expectedVersion : Int} {expectedHash replacementHash : Bytes} (s : Shared) :
    Harmless ext around party (Repository.changePassword id expectedVersion expectedHash replacementHash) s :=
  harmless_of_safe (change_safe id expectedVersion expectedHash replacementHash s)

theorem repository_revoke_harmless {id : Int} (s : Shared) :
    Harmless ext around party (Repository.revokeSessions id) s :=
  harmless_query trivial (fun reply t _ _ => credential_result_harmless reply.1 t)

theorem request_harmless (email : Bytes) (s : Shared) :
    Harmless ext around party (PasswordRecovery.request ext email) s := by
  refine harmless_query trivial ?_
  rintro (_ | allowed) t _ _
  · exact harmless_pure _ t
  cases allowed with
  | false => exact harmless_pure _ t
  | true =>
    refine harmless_query trivial ?_
    rintro (_ | issued) u _ learned
    · exact harmless_pure _ u
    · exact harmless_query (learned issued rfl) (fun _ v _ _ => harmless_pure _ v)

theorem reset_safe (presented replacement : Bytes) {first : Nat} (since : first ≤ s.commits.length) :
    Safe ext around party (fun t _ => Committed party t.commits first (fun commit => ∃ parsed observed,
        Token.parse ext.sum256 presented = some parsed ∧ commit.cause = .reset parsed.selector observed))
      (PasswordRecovery.reset ext presented replacement) s := by
  unfold PasswordRecovery.reset
  split
  · exact harmless_throw _ s
  rename_i parsed presents
  refine harmless_query trivial ?_
  rintro (_ | allowed) t earlier _
  · exact harmless_throw _ t
  cases allowed with
  | false => exact harmless_throw _ t
  | true =>
    refine harmless_query trivial ?_
    rintro ⟨err | ⟨token, user⟩, seen⟩ u middle learned
    · cases err <;> exact harmless_throw _ u
    obtain ⟨current, recorded⟩ := learned token user rfl
    dsimp only
    split
    · exact harmless_throw _ u
    rename_i accepted
    have same : token.credentialVersion = user.credentialVersion := not_not.mp (not_or.mp accepted).1
    refine harmless_query (show Current _ _ _ _ from same ▸ current) ?_
    intro _ v later _
    refine harmless_query trivial ?_
    rintro (_ | passwordHash) x further _
    · exact harmless_throw _ x
    -- The token's record stays, so the transaction meets the version seen here.
    have known := further.records _ (later.records _ (same ▸ recorded))
    refine harmless_query known ?_
    rintro ⟨err | token, seen⟩ y _ learned
    · cases err <;> exact harmless_throw _ y
    obtain ⟨current, committed⟩ := learned token rfl
    refine harmless_query current ?_
    intro _ z last _
    refine safe_pure ?_
    have reached : first ≤ x.commits.length := by
      have grown := ((earlier.commits.trans middle.commits).trans (later.commits.trans further.commits)).length_le
      exact Nat.le_trans since grown
    obtain ⟨commit, member, own, cause⟩ := committed_later last.commits reached committed
    exact ⟨commit, member, own, parsed, _, presents, cause⟩

variable (user : User)

theorem issue_harmless (name : Bytes) (days : Int) (s : Shared) :
    Harmless ext around party (PersonalTokens.issue user name days) s := by
  unfold PersonalTokens.issue
  dsimp only
  split
  · exact harmless_throw _ s
  refine harmless_query trivial ?_
  rintro (_ | issued) t _ _
  · exact harmless_throw _ t
  refine harmless_query trivial ?_
  rintro ⟨_ | row, seen⟩ u _ learned
  · exact harmless_throw _ u
  · exact harmless_query (learned row rfl) (fun _ v _ _ => harmless_pure _ v)

theorem authenticate_harmless (presented : Bytes) (s : Shared) :
    Harmless ext around party (PersonalTokens.authenticate ext presented) s := by
  unfold PersonalTokens.authenticate
  split
  · exact harmless_throw _ s
  split
  · exact harmless_throw _ s
  rename_i parsed _
  refine harmless_query trivial ?_
  rintro ⟨err | ⟨token, user⟩, seen⟩ t _ learned
  · cases err <;> exact harmless_throw _ t
  dsimp only
  split
  · exact harmless_throw _ t
  · exact harmless_query (learned token user rfl) (fun _ u _ _ => harmless_pure _ u)

theorem revoke_harmless (userID tokenID : Int) (s : Shared) :
    Harmless ext around party (PersonalTokens.revoke userID tokenID) s := by
  unfold PersonalTokens.revoke
  split
  · exact harmless_throw _ s
  refine harmless_query trivial ?_
  rintro ⟨_ | deleted, seen⟩ t _ _
  · exact harmless_throw _ t
  dsimp only
  split
  · exact harmless_throw _ t
  · exact harmless_pure _ t

theorem get_harmless (session : Session) (key : Bytes) (s : Shared) :
    Harmless ext around party (getInt64 session key) s := by
  unfold getInt64
  split
  · exact harmless_pure _ s
  split
  · exact harmless_throw _ s
  · exact harmless_pure _ s

theorem identity_harmless (session : Session) (s : Shared) :
    Harmless ext around party (authenticatedIdentity session) s := by
  refine harmless_bind (get_harmless session (ascii "user_id") s) ?_
  rintro (_ | userID) t _
  · exact harmless_pure _ t
  refine harmless_bind (get_harmless session (ascii "credential_version") t) ?_
  rintro (_ | version) u _
  · exact harmless_pure _ u
  dsimp only
  split <;> exact harmless_pure _ u

theorem check_identity_harmless (current : Session) {passed : User → Int → Nat → M α} (s : Shared)
    (valid : ∀ user version seen t, Current t.commits user.id version seen →
      Harmless ext around party (passed user version seen) t) :
    Harmless ext around party (checkIdentity current passed) s := by
  refine harmless_bind (identity_harmless current s) ?_
  rintro (_ | ⟨userID, version⟩) t _
  · exact turned_away current t
  refine harmless_query trivial ?_
  rintro ⟨(_ | _ | _) | user, seen⟩ u _ learned
  · exact turned_away current u
  · exact harmless_throw _ u
  · exact harmless_throw _ u
  dsimp only
  split
  · exact turned_away current u
  · rename_i same
    exact valid user version seen u (not_not.mp same ▸ learned user rfl)

variable (cookie : String)

theorem require_harmless (s : Shared) : Harmless ext around party (require ext cookie) s := by
  refine harmless_bind (sessions_harmless s) ?_
  rintro ⟨current, _⟩ t _
  refine check_identity_harmless current t ?_
  intro user version seen u read
  refine harmless_bind (changing_harmless u) ?_
  intro saved v later
  split
  · exact harmless_throw _ v
  · have justified := current_later later.commits read
    exact harmless_query justified (fun _ x _ _ => harmless_pure _ x)

theorem require_web_harmless (s : Shared) : Harmless ext around party (requireWeb ext cookie) s := by
  refine harmless_bind (sessions_harmless s) ?_
  rintro ⟨current, _⟩ t _
  refine check_identity_harmless current t ?_
  intro user version seen u read
  refine harmless_query read ?_
  intro _ v _ _
  exact harmless_bind (changing_harmless v) (fun _ x _ => harmless_pure _ x)

theorem enforce_harmless {scope : String} {key : Bytes} (s : Shared) :
    Harmless ext around party (enforce scope key) s := by
  refine harmless_query trivial ?_
  rintro (_ | _ | _) t _ _
  · exact harmless_throw _ t
  · exact harmless_throw _ t
  · exact harmless_pure _ t

theorem clear_harmless {scope : String} {key : Bytes} (s : Shared) :
    Harmless ext around party (clearLimit scope key) s := by
  refine harmless_query trivial ?_
  rintro (_ | _) t _ _
  · exact harmless_throw _ t
  · exact harmless_pure _ t

theorem verified_harmless {result : Except String Bool} {refused : Err} (s : Shared) :
    Harmless ext around party (verified result refused) s := by
  rcases result with _ | _ | _
  · exact harmless_throw _ s
  · exact harmless_throw _ s
  · exact harmless_pure _ s

theorem controller_rehash_harmless (plain : Bytes) (s : Shared) :
    Harmless ext around party (Controller.rehashPassword ext user plain) s := by
  refine harmless_query trivial ?_
  rintro (_ | replacement) t _ _
  · exact harmless_throw _ t
  refine harmless_query trivial ?_
  rintro ⟨(_ | _ | _) | updated, seen⟩ u _ _
  · refine harmless_query trivial ?_
    rintro ⟨err | latest, seen⟩ v _ _
    · cases err <;> exact harmless_throw _ v
    · exact harmless_bind (verified_harmless v) (fun _ x _ => harmless_pure _ x)
  · exact credential_result_harmless _ u
  · exact credential_result_harmless _ u
  · exact credential_result_harmless _ u

theorem controller_authenticate_harmless (email password : Bytes) (s : Shared) :
    Harmless ext around party (Controller.authenticate ext email password) s := by
  refine harmless_query trivial ?_
  rintro ⟨err | user, seen⟩ t _ _
  · cases err <;> exact harmless_throw _ t
  refine harmless_bind (verified_harmless t) ?_
  intro _ u _
  split
  · exact controller_rehash_harmless user password u
  · exact harmless_pure _ u

theorem login_harmless (email password : Bytes) (s : Shared) :
    Harmless ext around party (Controller.login ext cookie email password) s := by
  refine harmless_bind (enforce_harmless s) (fun _ t _ => ?_)
  refine harmless_bind (controller_authenticate_harmless email password t) (fun user u _ => ?_)
  refine harmless_bind (clear_harmless u) (fun _ v _ => ?_)
  refine harmless_bind (sessions_harmless v) (fun _ x _ => ?_)
  refine harmless_bind (changing_harmless x) (fun _ y _ => ?_)
  exact harmless_bind (changing_harmless y) (fun _ z _ => harmless_pure _ z)

theorem controller_change_harmless (current replacement : Bytes) (s : Shared) :
    Harmless ext around party (Controller.changePassword ext user current replacement) s := by
  refine harmless_bind (enforce_harmless s) (fun _ t _ => ?_)
  refine harmless_bind (verified_harmless t) (fun _ u _ => ?_)
  refine harmless_bind (clear_harmless u) (fun _ v _ => ?_)
  refine harmless_query trivial ?_
  rintro (_ | hash) x _ _
  · exact harmless_throw _ x
  · exact repository_change_harmless x

theorem change_password_harmless (currentPassword replacement : Bytes) (s : Shared) :
    Harmless ext around party (Controller.changePasswordRequest ext cookie currentPassword replacement) s := by
  refine harmless_bind (require_harmless cookie s) ?_
  rintro ⟨user, current⟩ t _
  refine harmless_bind (harmless_try (controller_change_harmless user currentPassword replacement t)) ?_
  intro result u _
  split
  · exact turned_away current u
  · exact harmless_throw _ u
  · refine harmless_bind (changing_harmless u) (fun _ v _ => ?_)
    exact harmless_bind (changing_harmless v) (fun _ x _ => harmless_pure _ x)

theorem revoke_all_harmless (s : Shared) :
    Harmless ext around party (Controller.revokeAllRequest ext cookie) s := by
  refine harmless_bind (require_harmless cookie s) (fun _ t _ => ?_)
  refine harmless_bind (repository_revoke_harmless t) (fun _ u _ => ?_)
  exact harmless_bind (changing_harmless u) (fun _ v _ => harmless_pure _ v)

theorem create_token_harmless (currentPassword name : Bytes) (days : Int) (s : Shared) :
    Harmless ext around party (Controller.createTokenRequest ext cookie currentPassword name days) s := by
  refine harmless_bind (require_harmless cookie s) (fun _ t _ => ?_)
  refine harmless_bind (enforce_harmless t) (fun _ u _ => ?_)
  refine harmless_bind (verified_harmless u) (fun _ v _ => ?_)
  refine harmless_bind (clear_harmless v) (fun _ x _ => ?_)
  exact harmless_bind (issue_harmless _ name days x) (fun _ y _ => harmless_pure _ y)

theorem finished_harmless (harmless : Harmless ext around party prog s) : Harmless ext around party (finished prog) s :=
  harmless_bind harmless (fun _ t _ => harmless_pure _ t)

theorem call_harmless (method : Method) (s : Shared) : Harmless ext around party (call ext method) s := by
  cases method with
  | login cookie email password => exact login_harmless cookie email password s
  | rehashPassword => exact finished_harmless (repository_rehash_harmless s)
  | changePassword => exact finished_harmless (repository_change_harmless s)
  | revokeSessions => exact finished_harmless (repository_revoke_harmless s)
  | request email => exact request_harmless email s
  | reset presented replacement => exact harmless_of_safe (reset_safe presented replacement (Nat.zero_le _))
  | issue user name days => exact finished_harmless (issue_harmless user name days s)
  | authenticate presented => exact finished_harmless (authenticate_harmless presented s)
  | revoke userID tokenID => exact revoke_harmless userID tokenID s
  | me cookie => exact finished_harmless (require_harmless cookie s)
  | page cookie => exact finished_harmless (require_web_harmless cookie s)
  | changePasswordRequest cookie currentPassword replacement =>
    exact change_password_harmless cookie currentPassword replacement s
  | revokeAllRequest cookie => exact revoke_all_harmless cookie s
  | createTokenRequest cookie currentPassword name days =>
    exact create_token_harmless cookie currentPassword name days s
  | revokeTokenRequest cookie tokenID =>
    exact harmless_bind (require_harmless cookie s) (fun _ t _ => revoke_harmless _ tokenID t)
  | logoutRequest cookie =>
    refine harmless_bind (require_harmless cookie s) (fun _ t _ => ?_)
    exact harmless_bind (changing_harmless t) (fun _ u _ => harmless_pure _ u)

end

theorem generations_sound (ext : Externals) (around : Sessions.Surroundings) :
    Sound (world ext around) generationRules (program ext) (fun _ => none) (fun _ _ _ => True) where
  starts s initial := by
    refine ⟨⟨⟨?_, ?_⟩, ⟨?_, ?_, initial.stored, initial.sound⟩, ?_, ?_, ?_, ?_⟩, fun _ => trivial⟩
    · simp [initial.uncommitted]
    · simp [initial.uncommitted]
    · intro row present
      rw [initial.records]
      exact List.mem_map_of_mem present
    · intro selector a b first second
      rw [initial.records] at first second
      obtain ⟨left, inLeft, sameLeft⟩ := List.mem_map.mp first
      obtain ⟨right, inRight, sameRight⟩ := List.mem_map.mp second
      injection sameLeft with selectorLeft versionLeft
      injection sameRight with selectorRight versionRight
      have present := find_mem inLeft
      rw [show resetSchema.key left = resetSchema.key right from selectorLeft.trans selectorRight.symm,
        find_mem inRight] at present
      cases present
      exact versionLeft.symm.trans versionRight
    · simp [initial.uncommitted]
    · simp [initial.uncommitted]
    · simp [initial.uncommitted]
    · simp [initial.unchecked]
  drifts s t sane drifted := by
    obtain ⟨clock, sessions, _, _, rfl⟩ := drifted
    refine ⟨⟨sane.history, ⟨sane.recorded.rows, sane.recorded.unique, sane.recorded.stored, sane.recorded.selectors⟩,
      sane.observed, sane.consumed, sane.once, sane.accepted⟩, fun party => ⟨?_, kept_refl party s.selectors⟩⟩
    exact ⟨grown_refl _, List.prefix_refl _, fun _ member => member⟩
  stable _ _ _ _ _ _ := trivial
  methods party s _ method _ _ := by
    apply valid_bind
    exact valid_mono (fun _ _ _ => trivial) s (call_harmless method s s (later_refl s))

theorem call_run_committed {ext : Externals} {around : Sessions.Surroundings} {party : Nat} {method : Method}
    {such : Commit → Prop} (c d : Config Shared Nat Reply Outcome) (labels : List (Label Nat Method))
    (reached : Reach (service ext around) c)
    (run : Run (service ext around) c (.begins party method :: labels) d)
    (busy : ∀ other, .begins party other ∉ labels) (returned : d.progs party = .ret (some (.ok ())))
    (safe : Safe ext around party (fun t _ => Committed party t.commits c.world.commits.length such)
      (call ext method) c.world) :
    Committed party d.world.commits c.world.commits.length such := by
  have kept := reach_kept (generations_sound ext around) c reached
  cases run with
  | cons _ m _ _ _ first later =>
    obtain ⟨next, _⟩ := kept_step (generations_sound ext around) kept first
    obtain ⟨value, _, rfl⟩ := first
    have followed := run_valid (generations_sound ext around)
      (fun t outcome => outcome = some (.ok ()) → Committed party t.commits c.world.commits.length such) ?_
      next later busy ?_
    · rw [returned] at followed
      exact followed rfl
    · intro s t outcome committed others ok
      exact committed_later others.1.commits (Nat.le_refl _) (committed ok)
    · rw [set_same]
      apply valid_bind
      refine valid_mono ?_ c.world (safe c.world (later_refl _))
      rintro t result ⟨_, post⟩ ok
      exact post () (Option.some.inj ok)

def Unrepeated {κ : Type} (commits : List Commit) (key : Commit → Option κ) : Prop :=
  ∀ (i j : Nat) (a b : Commit) (k : κ), commits[i]? = some a → commits[j]? = some b → key a = some k →
    key b = some k → i = j

theorem unrepeated_index {κ : Type} {commits : List Commit} {key : Commit → Option κ}
    (nodup : (commits.filterMap key).Nodup) : Unrepeated commits key := by
  have apart := List.pairwise_iff_getElem.mp (List.pairwise_filterMap.mp nodup)
  have ordered : ∀ (i j : Nat) (a b : Commit) (k : κ), i < j → commits[i]? = some a → commits[j]? = some b →
      key a = some k → key b ≠ some k := by
    intro i j a b k less atI atJ left right
    obtain ⟨inI, rfl⟩ := List.getElem?_eq_some_iff.mp atI
    obtain ⟨inJ, rfl⟩ := List.getElem?_eq_some_iff.mp atJ
    exact apart i j inI inJ less k left k right rfl
  intro i j a b k atI atJ left right
  rcases Nat.lt_trichotomy i j with less | same | more
  · exact absurd right (ordered i j a b k less atI atJ left)
  · exact same
  · exact absurd left (ordered j i b a k more atJ atI right)

theorem observed_unrepeated {s : Shared} (sane : Sane s) :
    Unrepeated s.commits (fun commit => commit.cause.observed.map (fun version => (commit.account, version))) := by
  intro i j a b pair atI atJ left right
  obtain ⟨version, first, rfl⟩ := Option.map_eq_some_iff.mp left
  obtain ⟨other, second, same⟩ := Option.map_eq_some_iff.mp right
  injection same with account observed
  subst observed
  have versions : a.version = b.version := by
    rw [sane.observed a (List.mem_of_getElem? atI) other first, sane.observed b (List.mem_of_getElem? atJ) other second]
  obtain ⟨inside, _⟩ := List.getElem?_eq_some_iff.mp atI
  refine (List.getElem?_inj (by simpa using inside) sane.history.distinct).mp ?_
  rw [List.getElem?_map, List.getElem?_map, atI, atJ]
  simp only [Option.map_some, account, versions]

theorem credential_generations (ext : Externals) (around : Sessions.Surroundings)
    (c : Config Shared Nat Reply Outcome) (reached : Reach (service ext around) c) :
    (∀ labels d, Run (service ext around) c labels d → ∀ id user, c.world.db.users.find id = some user →
      ∃ later, d.world.db.users.find id = some later ∧ user.credentialVersion ≤ later.credentialVersion) ∧
    Unrepeated c.world.commits (fun commit => commit.cause.observed.map (fun version => (commit.account, version))) ∧
    Unrepeated c.world.commits (fun commit => commit.cause.consumed) ∧
    (∀ acceptance ∈ c.world.accepted, ∀ i commit, i < acceptance.readAt → c.world.commits[i]? = some commit →
      commit.account = acceptance.account → commit.version ≤ acceptance.recorded) ∧
    ∀ party labels d, (∀ other, .begins party other ∉ labels) → d.progs party = .ret (some (.ok ())) →
      (∀ id expectedVersion expectedHash replacementHash,
        Run (service ext around) c
          (.begins party (.changePassword id expectedVersion expectedHash replacementHash) :: labels) d →
        Committed party d.world.commits c.world.commits.length
          (fun commit => commit.account = id ∧ commit.cause = .changed expectedVersion)) ∧
      ∀ presented replacement,
        Run (service ext around) c (.begins party (.reset presented replacement) :: labels) d →
        Committed party d.world.commits c.world.commits.length (fun commit => ∃ parsed observed,
          Token.parse ext.sum256 presented = some parsed ∧ commit.cause = .reset parsed.selector observed) := by
  have kept := reach_kept (generations_sound ext around) c reached
  have sane : Sane c.world := kept.inv
  refine ⟨?_, observed_unrepeated sane, unrepeated_index sane.once, ?_, ?_⟩
  · intro labels d run
    exact (run_relied (generations_sound ext around) later_refl later_trans (fun _ _ _ others => others.1) c d labels
      kept run).2.users
  · intro acceptance member i commit before found account
    exact (sane.accepted acceptance member).ahead i commit before found account
  · intro party labels d busy returned
    refine ⟨?_, ?_⟩
    · intro id expectedVersion expectedHash replacementHash run
      refine call_run_committed c d labels reached run busy returned ?_
      exact safe_bind _ (change_safe id expectedVersion expectedHash replacementHash c.world)
        (fun _ t _ committed => safe_pure committed)
    · intro presented replacement run
      exact call_run_committed c d labels reached run busy returned
        (reset_safe presented replacement (Nat.le_refl _))

def changedTwice : Config Shared Nat Reply Outcome :=
  samplePlay [(0, .login "" (ascii "ada@example.com") (ascii "old")), (0, .me "xx"),
    (1, .changePassword 1 1 (ascii "old") (ascii "new")), (2, .changePassword 1 1 (ascii "old") (ascii "other")),
    (0, .me "xx")]

theorem credential_generations_changed :
    changedTwice.world.accepted = [⟨.session, 1, 1, 0⟩, ⟨.session, 1, 1, 0⟩] ∧
      changedTwice.world.commits = [⟨1, 1, 2, .changed 1⟩] ∧
      changedTwice.progs 0 = .ret (some (.error .unauthorized)) ∧
      changedTwice.progs 2 = .ret (some (.error .credentialsChanged)) ∧
      Unrepeated changedTwice.world.commits
        (fun commit => commit.cause.observed.map (fun version => (commit.account, version))) := by
  refine ⟨rfl, rfl, rfl, rfl, ?_⟩
  exact (credential_generations plainExternals ⟨false, false⟩ changedTwice (sample_play_reached _ _)).2.1

end Goforge.Auth
