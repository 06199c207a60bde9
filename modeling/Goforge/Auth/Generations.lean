import Goforge.Auth.Steps

set_option autoImplicit false

namespace Goforge.Auth

open GoString Interleave Machine Names Sql

structure Current (commits : List Commit) (account version : Int) (seen : Nat) : Prop where
  known : seen ≤ commits.length
  ahead : ∀ i commit, i < seen → commits[i]? = some commit → commit.account = account → commit.version ≤ version

theorem current_later {commits later : List Commit} {account version : Int} {seen : Nat} (grown : commits <+: later)
    (current : Current commits account version seen) : Current later account version seen := by
  obtain ⟨rest, rfl⟩ := grown
  refine ⟨Nat.le_trans current.known (by simp), ?_⟩
  intro i commit before found
  rw [List.getElem?_append_left (Nat.lt_of_lt_of_le before current.known)] at found
  exact current.ahead i commit before found

def Acceptance.Justified (commits : List Commit) (acceptance : Acceptance) : Prop :=
  Current commits acceptance.account acceptance.recorded acceptance.readAt

structure History (users : Table userSchema) (commits : List Commit) : Prop where
  reached : ∀ commit ∈ commits, ∃ user, users.find commit.account = some user ∧ commit.version ≤ user.credentialVersion
  distinct : (commits.map (fun commit => (commit.account, commit.version))).Nodup

structure Recorded (s : Shared) : Prop where
  rows : ∀ row ∈ s.db.resets.rows, (row.selector, row.credentialVersion) ∈ s.records
  unique : ∀ selector a b, (selector, a) ∈ s.records → (selector, b) ∈ s.records → a = b
  stored : ∀ record ∈ s.records, record.1 ∈ s.selectors.stored
  selectors : s.selectors.Sound

structure Sane (s : Shared) : Prop where
  history : History s.db.users s.commits
  recorded : Recorded s
  observed : ∀ commit ∈ s.commits, ∀ version, commit.cause.observed = some version → commit.version = version + 1
  consumed : ∀ commit ∈ s.commits, ∀ selector, commit.cause.consumed = some selector →
    selector ∈ s.selectors.stored ∧ s.db.resets.find selector = none
  once : (s.commits.filterMap (fun commit => commit.cause.consumed)).Nodup
  accepted : ∀ acceptance ∈ s.accepted, acceptance.Justified s.commits

structure Later (s t : Shared) : Prop where
  users : Grown s.db.users t.db.users
  commits : s.commits <+: t.commits
  records : ∀ record ∈ s.records, record ∈ t.records

theorem later_refl (s : Shared) : Later s s :=
  ⟨grown_refl _, List.prefix_refl _, fun _ member => member⟩

theorem later_trans (s : Shared) {t u : Shared} (first : Later s t) (second : Later t u) : Later s u :=
  ⟨grown_trans first.users second.users, first.commits.trans second.commits,
    fun record member => second.records record (first.records record member)⟩

def generationRules : Rules Shared Nat where
  inv := Sane
  rely party s t := Later s t ∧ Pool.Kept party s.selectors t.selectors
  refl party s := ⟨later_refl s, kept_refl party s.selectors⟩
  trans _ s _ _ first second :=
    ⟨later_trans s first.1 second.1, kept_trans first.2 second.2⟩

def Statement.Sound (party : Nat) (s : Shared) : Statement → Prop
  | .storeReset _ issued _ => s.selectors.Reserved party issued.selector
  | .reset parsed _ observed => (parsed.selector, observed) ∈ s.records
  | _ => True

theorem statement_records {party : Nat} {s : Shared} (now : Int) {statement : Statement}
    (sound : statement.Sound party s) (record : Bytes × Int)
    (member : record ∈ statement.records (statement.run now s.db).1) :
    s.selectors.Reserved party record.1 ∧ statement.records (statement.run now s.db).1 = [record] := by
  cases statement with
  | storeReset email issued ttl =>
    simp only [Statement.run] at member ⊢
    unfold DB.storeReset at member ⊢
    cases holder : s.db.users.holder email with
    | none =>
      rw [holder] at member
      cases member
    | some user =>
      rw [holder] at member
      dsimp only at member ⊢
      split at member
      · cases member
      rw [List.mem_singleton.mp member]
      exact ⟨sound, rfl⟩
  | byID | byEmail | rehashPassword | changePassword | revokeSessions | preflight | reset | issue | authenticate
  | revokeToken => cases member

theorem statement_consumes {party : Nat} {s : Shared} {statement : Statement} {reply : statement.Reply}
    (sound : statement.Sound party s) {commit : Commit} (member : commit ∈ statement.commits party reply)
    {selector : Bytes} {observed : Int} (cause : commit.cause = .reset selector observed) :
    (selector, observed) ∈ s.records := by
  unfold Statement.commits at member
  split at member
  · rw [List.mem_singleton.mp member] at cause
    cases cause
  · rw [List.mem_singleton.mp member] at cause
    cases cause
  · rw [List.mem_singleton.mp member] at cause
    cases cause
    exact sound
  · cases member

theorem consumed_reset {cause : Cause} {selector : Bytes} (consumed : cause.consumed = some selector) :
    ∃ observed, cause = .reset selector observed := by
  cases cause with
  | reset other observed =>
    cases consumed
    exact ⟨observed, rfl⟩
  | _ => cases consumed

theorem effect_later (party : Nat) (s : Shared) (statement : Statement) : Later s (s.effect party statement) :=
  ⟨(step_run party s.clock s.db statement).grown, List.prefix_append _ _,
    fun _ member => List.mem_append_right _ member⟩

theorem advanced_ahead {before after : Table userSchema} {commits : List Commit} (history : History before commits)
    {commit : Commit} (advanced : Advanced before after commit) {other : Commit} (member : other ∈ commits)
    (same : other.account = commit.account) : other.version < commit.version := by
  obtain ⟨old, _, found, _, up, _⟩ := advanced
  obtain ⟨user, present, less⟩ := history.reached other member
  rw [same, found] at present
  cases present
  omega

theorem step_history {party : Nat} {db next : DB} {statement : Statement} {reply : statement.Reply}
    {commits : List Commit} (step : Step party db statement reply next) (history : History db.users commits) :
    History next.users (commits ++ statement.commits party reply) := by
  have reached : ∀ commit ∈ commits, ∃ user, next.users.find commit.account = some user ∧
      commit.version ≤ user.credentialVersion := by
    intro commit old
    obtain ⟨user, found, less⟩ := history.reached commit old
    obtain ⟨grown, there, further⟩ := step.grown commit.account user found
    exact ⟨grown, there, Int.le_trans less further⟩
  rcases step.commits with none | ⟨commit, is, advanced⟩
  · rw [none, List.append_nil]
    exact ⟨reached, history.distinct⟩
  rw [is]
  refine ⟨?_, ?_⟩
  · intro other member
    rcases List.mem_append.mp member with old | new
    · exact reached other old
    · obtain rfl := List.mem_singleton.mp new
      obtain ⟨_, grown, _, there, _, up⟩ := advanced
      exact ⟨grown, there, Int.le_of_eq up.symm⟩
  · rw [List.map_append]
    refine List.nodup_append.mpr ⟨history.distinct, List.nodup_singleton _, ?_⟩
    intro pair member last only same
    obtain ⟨other, old, rfl⟩ := List.mem_map.mp member
    rw [List.mem_singleton.mp only] at same
    injection same with account version
    exact absurd version (Int.ne_of_lt (advanced_ahead history advanced old account))

section

variable {party : Nat} {s : Shared} {statement : Statement}

theorem effect_recorded (recorded : Recorded s) (sound : statement.Sound party s) :
    Recorded (s.effect party statement) := by
  have step := step_run party s.clock s.db statement
  have fresh := statement_records s.clock sound
  refine ⟨?_, ?_, ?_, ?_⟩
  · intro row present
    rcases step.resets row present with before | new
    · exact List.mem_append_right _ (recorded.rows row before)
    · exact List.mem_append_left _ new
  · intro selector a b first second
    rcases List.mem_append.mp first with newA | oldA
    · rcases List.mem_append.mp second with newB | oldB
      · rw [(fresh _ newA).2] at newB
        cases List.mem_singleton.mp newB
        rfl
      · exact absurd (recorded.stored _ oldB) (fresh _ newA).1.1
    · rcases List.mem_append.mp second with newB | oldB
      · exact absurd (recorded.stored _ oldA) (fresh _ newB).1.1
      · exact recorded.unique selector a b oldA oldB
  · intro record member
    rcases List.mem_append.mp member with new | old
    · exact List.mem_append_left _ (List.mem_map_of_mem new)
    · exact List.mem_append_right _ (recorded.stored record old)
  · refine store_sound party recorded.selectors ?_
    intro name member
    obtain ⟨record, new, rfl⟩ := List.mem_map.mp member
    exact (fresh record new).1

theorem effect_consumes (recorded : Recorded s) (sound : statement.Sound party s) {commit : Commit}
    (member : commit ∈ statement.commits party (statement.run s.clock s.db).1) {selector : Bytes} {observed : Int}
    (cause : commit.cause = .reset selector observed) :
    selector ∈ s.selectors.stored ∧ s.db.resets.find selector ≠ none ∧
      (s.effect party statement).db.resets.find selector = none ∧ commit.version = observed + 1 := by
  have consumes := statement_consumes sound member cause
  obtain ⟨gone, token, found, up⟩ :=
    (step_run party s.clock s.db statement).consumed commit member selector observed cause
  obtain ⟨present, key⟩ := (find_some_iff s.db.resets selector token).mp found
  have kept := recorded.rows token present
  rw [show token.selector = selector from key] at kept
  refine ⟨recorded.stored _ consumes, by rw [found]; simp, gone, ?_⟩
  rw [up, recorded.unique selector _ _ kept consumes]

theorem effect_observed (recorded : Recorded s) (sound : statement.Sound party s) {commit : Commit}
    (member : commit ∈ statement.commits party (statement.run s.clock s.db).1) {version : Int}
    (observed : commit.cause.observed = some version) : commit.version = version + 1 := by
  cases cause : commit.cause with
  | changed seen =>
    rw [cause] at observed
    cases observed
    exact (step_run party s.clock s.db statement).changed commit member version cause
  | revoked =>
    rw [cause] at observed
    cases observed
  | reset selector seen =>
    rw [cause] at observed
    cases observed
    exact (effect_consumes recorded sound member cause).2.2.2

theorem effect_unreset (sound : statement.Sound party s) {selector : Bytes} (stored : selector ∈ s.selectors.stored)
    (gone : s.db.resets.find selector = none) : (s.effect party statement).db.resets.find selector = none := by
  apply (find_none_iff _ _).mpr
  intro row present same
  rcases (step_run party s.clock s.db statement).resets row present with before | new
  · exact (find_none_iff _ _).mp gone row before same
  · have reserved := (statement_records s.clock sound _ new).1
    exact reserved.1 ((show row.selector = selector from same) ▸ stored)

theorem effect_sane (sane : Sane s) (sound : statement.Sound party s) : Sane (s.effect party statement) := by
  have step := step_run party s.clock s.db statement
  have token : ∀ commit ∈ statement.commits party (statement.run s.clock s.db).1, ∀ selector,
      commit.cause.consumed = some selector → selector ∈ s.selectors.stored ∧ s.db.resets.find selector ≠ none ∧
        (s.effect party statement).db.resets.find selector = none := by
    intro commit member selector consumed
    obtain ⟨observed, cause⟩ := consumed_reset consumed
    obtain ⟨stored, there, gone, _⟩ := effect_consumes sane.recorded sound member cause
    exact ⟨stored, there, gone⟩
  refine ⟨step_history step sane.history, effect_recorded sane.recorded sound, ?_, ?_, ?_, ?_⟩
  · intro commit member version observed
    rcases List.mem_append.mp member with old | new
    · exact sane.observed commit old version observed
    · exact effect_observed sane.recorded sound new observed
  · intro commit member selector consumed
    rcases List.mem_append.mp member with old | new
    · obtain ⟨stored, gone⟩ := sane.consumed commit old selector consumed
      exact ⟨List.mem_append_right _ stored, effect_unreset sound stored gone⟩
    · obtain ⟨stored, _, gone⟩ := token commit new selector consumed
      exact ⟨List.mem_append_right _ stored, gone⟩
  · simp only [Shared.effect, List.filterMap_append]
    refine List.nodup_append.mpr ⟨sane.once, ?_, ?_⟩
    · rcases step.commits with none | ⟨commit, is, _⟩
      · rw [none]
        exact List.nodup_nil
      · rw [is]
        cases consumed : commit.cause.consumed <;> simp [consumed]
    · intro selector before other after same
      obtain ⟨old, member, consumed⟩ := List.mem_filterMap.mp before
      obtain ⟨new, present, again⟩ := List.mem_filterMap.mp after
      exact (token new present other again).2.1 (same ▸ (sane.consumed old member selector consumed).2)
  · intro acceptance member
    exact current_later (effect_later party s statement).commits (sane.accepted acceptance member)

end

theorem effect_kept {party other : Nat} {s : Shared} {statement : Statement} (sound : statement.Sound party s)
    (apart : other ≠ party ∨ ∀ email issued ttl, statement ≠ .storeReset email issued ttl) :
    Pool.Kept other s.selectors (s.effect party statement).selectors := by
  refine store_kept party ?_ ?_
  · intro name member
    obtain ⟨record, new, rfl⟩ := List.mem_map.mp member
    exact (statement_records s.clock sound record new).1
  · refine apart.imp_right (fun quiet => ?_)
    cases statement with
    | storeReset email issued ttl => exact absurd rfl (quiet email issued ttl)
    | byID | byEmail | rehashPassword | changePassword | revokeSessions | preflight | reset | issue | authenticate
    | revokeToken => rfl

def Question.Sound (party : Nat) (s : Shared) : Question → Prop
  | .sql statement => statement.Sound party s
  | .accept acceptance => acceptance.Justified s.commits
  | _ => True

theorem sound_later {party : Nat} {s t : Shared} {question : Question} (sound : question.Sound party s)
    (others : generationRules.rely party s t) : question.Sound party t := by
  obtain ⟨later, kept⟩ := others
  cases question with
  | sql statement =>
    cases statement with
    | storeReset email issued ttl => exact reserved_kept sound kept
    | reset parsed passwordHash observed => exact later.records _ sound
    | byID | byEmail | rehashPassword | changePassword | revokeSessions | preflight | issue | authenticate
    | revokeToken => trivial
  | accept acceptance => exact current_later later.commits sound
  | session | take | clear | hash | newToken => trivial

def Committed (party : Nat) (commits : List Commit) (seen : Nat) (such : Commit → Prop) : Prop :=
  ∃ commit ∈ commits.drop seen, commit.party = party ∧ such commit

theorem committed_later {party : Nat} {commits later : List Commit} {seen first : Nat} {such : Commit → Prop}
    (grown : commits <+: later) (before : first ≤ seen) (committed : Committed party commits seen such) :
    Committed party later first such := by
  obtain ⟨commit, member, rest⟩ := committed
  obtain ⟨more, rfl⟩ := grown
  refine ⟨commit, ?_, rest⟩
  have inside : List.Sublist (commits.drop seen) ((commits ++ more).drop first) :=
    (List.drop_sublist_drop_left commits before).trans ((List.sublist_append_left commits more).drop first)
  exact inside.subset member

def Learned (party : Nat) (s t : Shared) : (question : Question) → Reply question → Prop
  | .newToken, reply => ∀ issued, reply = some issued → t.selectors.Reserved party issued.selector
  | .sql (.byID _), (reply, seen) => ∀ user, reply = .ok user → Current t.commits user.id user.credentialVersion seen
  | .sql (.preflight selector), (reply, seen) => ∀ token user, reply = .ok (token, user) →
      Current t.commits user.id user.credentialVersion seen ∧ (selector, token.credentialVersion) ∈ t.records
  | .sql (.changePassword id expectedVersion _ _), (reply, seen) => ∀ user, reply = .ok user →
      Current t.commits id expectedVersion seen ∧ Committed party t.commits s.commits.length
        (fun commit => commit.account = id ∧ commit.cause = .changed expectedVersion)
  | .sql (.reset parsed _ observed), (reply, seen) => ∀ token, reply = .ok token →
      Current t.commits token.userID token.credentialVersion seen ∧
        Committed party t.commits s.commits.length (fun commit => commit.cause = .reset parsed.selector observed)
  | .sql (.issue user _ _ _), (reply, seen) => ∀ row, reply = .ok row →
      Current t.commits user.id user.credentialVersion seen
  | .sql (.authenticate _), (reply, seen) => ∀ token user, reply = .ok (token, user) →
      Current t.commits user.id token.credentialVersion seen
  | _, _ => True

theorem read_current {s : Shared} {id : Int} {user : User} (sane : Sane s) (found : s.db.users.find id = some user) :
    Current s.commits user.id user.credentialVersion s.commits.length := by
  refine ⟨Nat.le_refl _, ?_⟩
  intro i commit _ present account
  obtain ⟨now, there, less⟩ := sane.history.reached commit (List.mem_of_getElem? present)
  have key : user.id = id := find_key found
  rw [account, key, found] at there
  cases there
  exact less

theorem found_some {α : Type} {result : Option α} {value : α} (ok : found result = .ok value) :
    result = some value := by
  cases result with
  | none => cases ok
  | some other =>
    cases ok
    rfl

theorem answered_learned (party : Nat) {s : Shared} (statement : Statement) (sane : Sane s) :
    Learned party s (s.effect party statement) (.sql statement) ((statement.run s.clock s.db).1, s.commits.length) := by
  have grown := (effect_later party s statement).commits
  cases statement with
  | byID id =>
    intro user ok
    exact current_later grown (read_current sane (found_some ok))
  | preflight selector =>
    intro token user ok
    obtain ⟨stored, account⟩ := live_reset_found (found_some ok)
    refine ⟨current_later grown (read_current sane account), ?_⟩
    obtain ⟨present, key⟩ := (find_some_iff s.db.resets selector token).mp stored
    have kept := sane.recorded.rows token present
    rw [show token.selector = selector from key] at kept
    exact kept
  | reset parsed passwordHash observed =>
    intro token ok
    have commits : (s.effect party (.reset parsed passwordHash observed)).commits.drop s.commits.length =
        [⟨party, token.userID, token.credentialVersion + 1, .reset parsed.selector observed⟩] := by
      rw [Shared.effect, List.drop_left, ok]
      rfl
    refine ⟨?_, _, by rw [commits]; exact List.mem_cons_self, rfl, rfl⟩
    simp only [Statement.run] at ok
    cases result : s.db.resetPassword s.clock parsed passwordHash with
    | error err =>
      rw [result] at ok
      cases ok
    | ok pair =>
      obtain ⟨stored, next⟩ := pair
      rw [result] at ok
      cases ok
      obtain ⟨user, _, _, live, same, _⟩ := reset_password_ok result
      obtain ⟨_, account⟩ := live_reset_found live
      have key : user.id = token.userID := find_key account
      have current := read_current sane account
      rw [← same, key] at current
      exact current_later grown current
  | authenticate selector =>
    intro token user ok
    obtain ⟨account, same⟩ := live_token_found (found_some ok)
    rw [same]
    exact current_later grown (read_current sane account)
  | changePassword id expectedVersion expectedHash replacementHash =>
    intro user ok
    have commits : (s.effect party (.changePassword id expectedVersion expectedHash replacementHash)).commits.drop
        s.commits.length = [⟨party, user.id, user.credentialVersion, .changed expectedVersion⟩] := by
      rw [Shared.effect, List.drop_left, ok]
      rfl
    simp only [Statement.run] at ok
    cases result : s.db.changePassword s.clock id expectedVersion expectedHash replacementHash with
    | error err =>
      rw [result] at ok
      cases ok
    | ok pair =>
      obtain ⟨updated, next⟩ := pair
      rw [result] at ok
      cases ok
      obtain ⟨table, rows, updates, member, _⟩ := update_users_ok result
      obtain ⟨old, found, hit, _, _⟩ := update_returned updates member
      have key : old.id = user.id := find_key found
      simp only [credentialsAre, decide_eq_true_eq] at hit
      have current := read_current sane found
      rw [hit.1, hit.2.1] at current
      refine ⟨current_later grown current, _, by rw [commits]; exact List.mem_cons_self, rfl, ?_, rfl⟩
      exact key.symm.trans hit.1
  | issue user name days issued =>
    intro row ok
    simp only [Statement.run] at ok
    cases result : s.db.issueToken s.clock user name days issued with
    | error err =>
      rw [result] at ok
      cases ok
    | ok pair =>
      obtain ⟨account, found, same⟩ := issue_token_ok result
      have current := read_current sane found
      rw [show account.id = user.id from find_key found, same] at current
      exact current_later grown current
  | byEmail | rehashPassword | revokeSessions | storeReset | revokeToken => trivial

theorem failed_learned (party : Nat) (s t : Shared) (statement : Statement) (text : String) {seen : Nat} :
    Learned party s t (.sql statement) (statement.fail text, seen) := by
  cases statement with
  | byID => rintro _ ⟨⟩
  | preflight => rintro _ _ ⟨⟩
  | reset => rintro _ ⟨⟩
  | changePassword => rintro _ ⟨⟩
  | issue => rintro _ ⟨⟩
  | authenticate => rintro _ _ ⟨⟩
  | byEmail | rehashPassword | revokeSessions | storeReset | revokeToken => trivial

theorem learned_since {party : Nat} {s later t : Shared} {question : Question} {reply : Reply question}
    (grown : Later s later) (learned : Learned party later t question reply) : Learned party s t question reply := by
  have since : s.commits.length ≤ later.commits.length := grown.commits.length_le
  cases question with
  | sql statement =>
    cases statement with
    | changePassword =>
      intro user ok
      obtain ⟨current, committed⟩ := learned user ok
      exact ⟨current, committed_later (List.prefix_refl _) since committed⟩
    | reset =>
      intro token ok
      obtain ⟨current, committed⟩ := learned token ok
      exact ⟨current, committed_later (List.prefix_refl _) since committed⟩
    | byID | byEmail | rehashPassword | revokeSessions | storeReset | preflight | issue | authenticate
    | revokeToken => exact learned
  | session | take | clear | hash | newToken | accept => exact learned

structure Answered (party : Nat) (s t : Shared) (question : Question) (reply : Reply question) : Prop where
  sane : Sane t
  later : Later s t
  kept : ∀ other, other ≠ party → Pool.Kept other s.selectors t.selectors
  learned : Learned party s t question reply

theorem sql_answered {party : Nat} {s t : Shared} {statement : Statement} {reply : statement.Reply}
    (answer : SqlAnswer s party statement reply t) (sane : Sane s) (sound : statement.Sound party s) :
    Answered party s t (.sql statement) (reply, s.commits.length) := by
  have done : Sane (s.effect party statement) := effect_sane sane sound
  have kept : ∀ other, other ≠ party → Pool.Kept other s.selectors (s.effect party statement).selectors :=
    fun other apart => effect_kept sound (.inl apart)
  cases answer with
  | answered => exact ⟨done, effect_later party s statement, kept, answered_learned party statement sane⟩
  | failed text =>
    exact ⟨sane, later_refl s, fun other _ => kept_refl other s.selectors, failed_learned party s s statement text⟩
  | lost text => exact ⟨done, effect_later party s statement, kept, failed_learned party s _ statement text⟩

theorem question_answered (ext : Externals) (around : Sessions.Surroundings) (party : Nat) {s : Shared} (t : Shared)
    {question : Question} (reply : Reply question) (answer : answers ext around s party question reply t)
    (sane : Sane s) (sound : question.Sound party s) : Answered party s t question reply := by
  cases question with
  | sql statement =>
    obtain ⟨reply, seen⟩ := reply
    obtain ⟨rfl, answer⟩ := answer
    exact sql_answered answer sane sound
  | session question =>
    obtain ⟨sessions, _, rfl⟩ := answer
    exact ⟨⟨sane.history, ⟨sane.recorded.rows, sane.recorded.unique, sane.recorded.stored, sane.recorded.selectors⟩,
      sane.observed, sane.consumed, sane.once, sane.accepted⟩,
      ⟨grown_refl _, List.prefix_refl _, fun _ member => member⟩,
      fun other _ => kept_refl other s.selectors, trivial⟩
  | newToken =>
    cases reply with
    | none =>
      obtain rfl := answer
      exact ⟨sane, later_refl _, fun other _ => kept_refl other _, (by rintro _ ⟨⟩)⟩
    | some issued =>
      obtain ⟨_, fresh, rfl⟩ := answer
      have pool := sane.recorded.selectors
      refine ⟨⟨sane.history, ⟨sane.recorded.rows, sane.recorded.unique, sane.recorded.stored,
        draw_sound party issued.selector pool⟩, sane.observed, sane.consumed, sane.once, sane.accepted⟩,
        ⟨grown_refl _, List.prefix_refl _, fun _ member => member⟩, ?_, ?_⟩
      · exact fun other _ => draw_kept party other pool fresh
      · rintro _ ⟨⟩
        exact draw_reserved party pool fresh
  | accept acceptance =>
    obtain rfl := answer
    refine ⟨⟨sane.history, ⟨sane.recorded.rows, sane.recorded.unique, sane.recorded.stored, sane.recorded.selectors⟩,
      sane.observed, sane.consumed, sane.once, ?_⟩, ⟨grown_refl _, List.prefix_refl _, fun _ member => member⟩,
      fun other _ => kept_refl other s.selectors, trivial⟩
    intro other member
    rcases List.mem_cons.mp member with rfl | old
    · exact sound
    · exact sane.accepted other old
  | _ =>
    obtain rfl := answer
    exact ⟨sane, later_refl _, fun other _ => kept_refl other _, trivial⟩

end Goforge.Auth
