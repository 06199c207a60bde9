import Goforge.Auth.World

set_option autoImplicit false

namespace Goforge.Auth

open GoString Sql

def Grown (before after : Table userSchema) : Prop :=
  ∀ id user, before.find id = some user →
    ∃ later, after.find id = some later ∧ user.credentialVersion ≤ later.credentialVersion

theorem grown_refl (table : Table userSchema) : Grown table table :=
  fun _ user found => ⟨user, found, Int.le_refl _⟩

theorem grown_trans {a b c : Table userSchema} (first : Grown a b) (second : Grown b c) : Grown a c := by
  intro id user found
  obtain ⟨later, there, less⟩ := first id user found
  obtain ⟨last, present, further⟩ := second id later there
  exact ⟨last, present, Int.le_trans less further⟩

theorem update_grown {table next : Table userSchema} {pred : User → Bool} {assign : Assign userSchema pred}
    {rows : List User} (done : table.update pred assign = .ok (next, rows))
    (up : ∀ user, user.credentialVersion ≤ (assign.set user).credentialVersion) : Grown table next := by
  intro id user found
  refine ⟨_, (update_ok assign done id).trans (by rw [found]; rfl), ?_⟩
  dsimp only
  split
  · exact up user
  · exact Int.le_refl _

def Advanced (before after : Table userSchema) (commit : Commit) : Prop :=
  ∃ old later, before.find commit.account = some old ∧ after.find commit.account = some later ∧
    commit.version = old.credentialVersion + 1 ∧ later.credentialVersion = commit.version

theorem update_returned {table next : Table userSchema} {pred : User → Bool} {assign : Assign userSchema pred}
    {rows : List User} {user : User} (done : table.update pred assign = .ok (next, rows)) (member : user ∈ rows) :
    ∃ old, table.find user.id = some old ∧ pred old = true ∧ user = assign.set old ∧ next.find user.id = some user := by
  rw [update_returns assign done] at member
  obtain ⟨old, hit, rfl⟩ := List.mem_map.mp member
  obtain ⟨present, matched⟩ := List.mem_filter.mp hit
  have same : (assign.set old).id = old.id := assign.keepsKey old matched
  have found : table.find (assign.set old).id = some old := by
    rw [same]
    exact find_mem present
  refine ⟨old, found, matched, rfl, ?_⟩
  rw [update_ok assign done, found]
  simp [matched]

variable {db : DB}

theorem update_users_ok {next : DB} {pred : User → Bool} {assign : Assign userSchema pred} {user : User}
    (done : db.updateUsers pred assign = .ok (user, next)) :
    ∃ table rows, db.users.update pred assign = .ok (table, rows) ∧ user ∈ rows ∧
    next = { db with users := table } := by
  unfold DB.updateUsers at done
  cases updated : db.users.update pred assign with
  | error err => simp [updated] at done
  | ok result =>
    obtain ⟨table, rows⟩ := result
    rw [updated] at done
    cases rows with
    | nil => cases done
    | cons first rest =>
      cases done
      exact ⟨table, _, rfl, List.mem_cons_self, rfl⟩

structure Step (party : Nat) (db : DB) (statement : Statement) (reply : statement.Reply) (next : DB) : Prop where
  grown : Grown db.users next.users
  commits : statement.commits party reply = [] ∨
    ∃ commit, statement.commits party reply = [commit] ∧ Advanced db.users next.users commit
  changed : ∀ commit ∈ statement.commits party reply, ∀ observed, commit.cause = .changed observed →
    commit.version = observed + 1
  consumed : ∀ commit ∈ statement.commits party reply, ∀ selector observed, commit.cause = .reset selector observed →
    next.resets.find selector = none ∧
      ∃ token, db.resets.find selector = some token ∧ commit.version = token.credentialVersion + 1
  resets : ∀ row ∈ next.resets.rows, row ∈ db.resets.rows ∨
    (row.selector, row.credentialVersion) ∈ statement.records reply

theorem step_quiet {party : Nat} {statement : Statement} {reply : statement.Reply} {next : DB}
    (quiet : statement.commits party reply = []) (users : next.users = db.users) (resets : next.resets = db.resets) :
    Step party db statement reply next where
  grown := users ▸ grown_refl db.users
  commits := .inl quiet
  changed commit member := by rw [quiet] at member; cases member
  consumed commit member := by rw [quiet] at member; cases member
  resets row member := .inl (resets ▸ member)

theorem step_advance {party : Nat} {statement : Statement} {reply : statement.Reply} {next : DB} {commit : Commit}
    (commits : statement.commits party reply = [commit]) (grown : Grown db.users next.users)
    (advanced : Advanced db.users next.users commit)
    (changed : ∀ observed, commit.cause = .changed observed → commit.version = observed + 1)
    (kept : ∀ selector observed, commit.cause ≠ .reset selector observed) (resets : next.resets = db.resets) :
    Step party db statement reply next where
  grown := grown
  commits := .inr ⟨commit, commits, advanced⟩
  changed other member := by
    rw [commits] at member
    rw [List.mem_singleton.mp member]
    exact changed
  consumed other member selector observed cause := by
    rw [commits] at member
    rw [List.mem_singleton.mp member] at cause
    exact absurd cause (kept selector observed)
  resets row member := .inl (resets ▸ member)

theorem upsert_rows {resets next : Table resetSchema} {row : ResetToken} (done : upsertReset resets row = .ok next)
    {other : ResetToken} (member : other ∈ next.rows) : other ∈ resets.rows ∨ other = row := by
  obtain ⟨rows, _⟩ := insert_ok next row done
  rw [rows] at member
  rcases List.mem_cons.mp member with same | old
  · exact .inr same
  · exact .inl (List.mem_filter.mp old).1

theorem live_reset_found {now : Int} {selector : Bytes} {token : ResetToken} {user : User}
    (live : db.liveReset now selector = some (token, user)) :
    db.resets.find selector = some token ∧ db.users.find token.userID = some user := by
  unfold DB.liveReset at live
  cases found : db.resets.find selector with
  | none => simp [found] at live
  | some stored =>
    rw [found] at live
    obtain ⟨_, joined⟩ := Option.ite_none_right_eq_some.mp live
    obtain ⟨account, present, same⟩ := Option.map_eq_some_iff.mp joined
    cases same
    exact ⟨rfl, present⟩

theorem live_token_found {now : Int} {selector : Bytes} {token : PersonalTokenRow} {user : User}
    (live : db.liveToken now selector = some (token, user)) :
    db.users.find token.userID = some user ∧ token.credentialVersion = user.credentialVersion := by
  unfold DB.liveToken at live
  cases found : db.tokens.find selector with
  | none => simp [found] at live
  | some stored =>
    rw [found] at live
    dsimp only at live
    cases account : db.users.find stored.userID with
    | none => simp [account] at live
    | some owner =>
      rw [account] at live
      obtain ⟨⟨_, same⟩, equal⟩ := Option.ite_none_right_eq_some.mp live
      cases equal
      exact ⟨account, same⟩

theorem reset_password_ok {next : DB} {now : Int} {parsed : Token.Parsed} {passwordHash : Bytes} {token : ResetToken}
    (done : db.resetPassword now parsed passwordHash = .ok (token, next)) :
    ∃ user table rows, db.liveReset now parsed.selector = some (token, user) ∧
      token.credentialVersion = user.credentialVersion ∧
      db.users.update (versionIs token.userID user.credentialVersion) (changed now _ passwordHash) = .ok (table, rows) ∧
      rows.length = 1 ∧
      next = { db with
        users := table
        resets := (db.resets.delete (fun other => decide (other.selector = parsed.selector))).1 } := by
  unfold DB.resetPassword at done
  cases live : db.liveReset now parsed.selector with
  | none => simp [live] at done
  | some joined =>
    obtain ⟨stored, user⟩ := joined
    rw [live] at done
    dsimp only at done
    split at done
    · cases done
    rename_i accepted
    push Not at accepted
    cases updated : db.users.update (versionIs stored.userID user.credentialVersion)
        (changed now _ passwordHash) with
    | error err => simp [updated] at done
    | ok result =>
      obtain ⟨table, rows⟩ := result
      rw [updated] at done
      dsimp only at done
      split at done
      · cases done
      rename_i single
      push Not at single
      split at done
      · cases done
      cases done
      exact ⟨user, table, rows, rfl, accepted.1, updated, single, rfl⟩

theorem issue_token_ok {next : DB} {now : Int} {user : User} {name : Bytes} {days : Int} {issued : Token.Issued}
    {row : PersonalTokenRow} (done : db.issueToken now user name days issued = .ok (row, next)) :
    ∃ account, db.users.find user.id = some account ∧ account.credentialVersion = user.credentialVersion := by
  unfold DB.issueToken at done
  cases account : db.users.find user.id with
  | none =>
    rw [account] at done
    cases done
  | some owner =>
    rw [account] at done
    dsimp only at done
    split at done
    · cases done
    rename_i same
    exact ⟨owner, rfl, not_not.mp same⟩

theorem step_run (party : Nat) (now : Int) (db : DB) (statement : Statement) :
    Step party db statement (statement.run now db).1 (statement.run now db).2 := by
  cases statement with
  | rehashPassword id expectedHash replacementHash =>
    simp only [Statement.run]
    cases result : db.rehashPassword now id expectedHash replacementHash with
    | error err => exact step_quiet rfl rfl rfl
    | ok pair =>
      obtain ⟨user, next⟩ := pair
      obtain ⟨table, rows, updated, _, rfl⟩ := update_users_ok result
      refine ⟨update_grown updated (fun user => Int.le_refl _), .inl rfl, ?_, ?_, ?_⟩
      · rintro _ ⟨⟩
      · rintro _ ⟨⟩
      · exact fun row member => .inl member
  | changePassword id expectedVersion expectedHash replacementHash =>
    simp only [Statement.run]
    cases result : db.changePassword now id expectedVersion expectedHash replacementHash with
    | error err => exact step_quiet rfl rfl rfl
    | ok pair =>
      obtain ⟨user, next⟩ := pair
      obtain ⟨table, rows, updated, member, rfl⟩ := update_users_ok result
      obtain ⟨old, found, hit, rfl, later⟩ := update_returned updated member
      refine step_advance rfl (update_grown updated (fun user => Int.le_of_lt (Int.lt_succ _)))
        ⟨old, _, found, later, rfl, rfl⟩ ?_ (by rintro _ _ ⟨⟩) rfl
      rintro _ ⟨⟩
      simp only [credentialsAre, decide_eq_true_eq] at hit
      exact congrArg (· + 1) hit.2.1
  | revokeSessions id =>
    simp only [Statement.run]
    cases result : db.revokeSessions now id with
    | error err => exact step_quiet rfl rfl rfl
    | ok pair =>
      obtain ⟨user, next⟩ := pair
      obtain ⟨table, rows, updated, member, rfl⟩ := update_users_ok result
      obtain ⟨old, found, _, rfl, later⟩ := update_returned updated member
      exact step_advance rfl (update_grown updated (fun user => Int.le_of_lt (Int.lt_succ _)))
        ⟨old, _, found, later, rfl, rfl⟩ (by rintro _ ⟨⟩) (by rintro _ _ ⟨⟩) rfl
  | storeReset email issued ttl =>
    simp only [Statement.run]
    unfold DB.storeReset
    cases db.users.holder email with
    | none => exact step_quiet rfl rfl rfl
    | some user =>
      dsimp only
      split
      · exact step_quiet rfl rfl rfl
      · rename_i table stored
        refine ⟨grown_refl _, .inl rfl, (by rintro _ ⟨⟩), (by rintro _ ⟨⟩), ?_⟩
        intro row member
        rcases upsert_rows stored member with old | rfl
        · exact .inl old
        · exact .inr List.mem_cons_self
  | reset parsed passwordHash observed =>
    simp only [Statement.run]
    cases result : db.resetPassword now parsed passwordHash with
    | error err => exact step_quiet rfl rfl rfl
    | ok pair =>
      obtain ⟨token, next⟩ := pair
      obtain ⟨user, table, rows, live, same, updated, single, rfl⟩ :=
        reset_password_ok result
      obtain ⟨first, rfl⟩ := List.length_eq_one_iff.mp single
      obtain ⟨old, found, hit, rfl, later⟩ := update_returned updated List.mem_cons_self
      simp only [versionIs, decide_eq_true_eq] at hit
      obtain ⟨stored, _⟩ := live_reset_found live
      have account : (changed now (versionIs token.userID user.credentialVersion) passwordHash).set old =
          { old with passwordHash := passwordHash, credentialVersion := old.credentialVersion + 1, updatedAt := now } :=
          rfl
      rw [account] at found later
      simp only [hit.1] at found later
      refine ⟨update_grown updated (fun user => Int.le_of_lt (Int.lt_succ _)), .inr ⟨_, rfl, old, _, found,
        later, ?_, ?_⟩, ?_, ?_, ?_⟩
      · simp only [same, hit.2]
      · simp only [same, hit.2]
      · intro commit member observed cause
        rw [List.mem_singleton.mp member] at cause
        cases cause
      · intro commit member selector observed cause
        rw [List.mem_singleton.mp member] at cause ⊢
        cases cause
        refine ⟨?_, token, stored, rfl⟩
        simp only [settled, find_delete, stored]
        have key := find_key stored
        exact Option.filter_some_neg (by simpa [resetSchema] using key)
      · intro row member
        exact .inl (List.mem_filter.mp member).1
  | issue user name days issued =>
    simp only [Statement.run]
    unfold DB.issueToken
    cases db.users.find user.id with
    | none => exact step_quiet rfl rfl rfl
    | some account =>
      dsimp only
      split
      · exact step_quiet rfl rfl rfl
      split
      · exact step_quiet rfl rfl rfl
      split
      · exact step_quiet rfl rfl rfl
      split <;> exact step_quiet rfl rfl rfl
  | _ => exact step_quiet rfl rfl rfl

end Goforge.Auth
