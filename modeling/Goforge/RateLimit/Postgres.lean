import Goforge.Lib.Regex
import Goforge.Lib.Table
import Goforge.RateLimit.Memory

set_option autoImplicit false

namespace Goforge.RateLimit.Postgres

open GoTime Sql Text

inductive Err where
  | key
  | policyLimit
  | policyWindow
  | context (err : ContextErr)
  | prune (err : SqlError)
  | consume (err : SqlError)
  | counterState
  | resetTime
  | reset (err : SqlError)
deriving DecidableEq, Repr

def maxAttempts : Int := 1000001

def maximumPolicy : Int := maxAttempts - 1

def maximumWindow : Int := 365 * 24 * hour

def hashedKeyPattern : Regex := Regex.repeated (.oneOf [('0', '9'), ('a', 'f')]) 64

def validateKey (key : String) : Option Err :=
  if key.utf8ByteSize ≠ 64 ∨ ¬ hashedKeyPattern.accepts key then some .key else none

def validatePolicy (policy : Policy) : Option Err :=
  if policy.limit < 1 ∨ policy.limit > maximumPolicy then some .policyLimit
  else if policy.window < millisecond ∨ policy.window > maximumWindow ∨ policy.window.tmod millisecond ≠ 0 then
    some .policyWindow
  else none

structure Counter where
  key : String
  attempts : Int
  resetAt : Int
  updatedAt : Int
deriving DecidableEq, Repr

def limits : Schema Counter String String where
  key row := row.key
  index row := some row.key
  check row := decide (row.key.utf8ByteSize = 64) && hashedKeyPattern.accepts row.key &&
    decide (1 ≤ row.attempts ∧ row.attempts ≤ maxAttempts)

abbrev Counters := Table limits

def Counter.expired (now : Int) (row : Counter) : Bool := decide (row.resetAt ≤ now)

def pruneOrder (a b : Counter) : Bool :=
  decide (a.resetAt < b.resetAt) || (decide (a.resetAt = b.resetAt) && decide (a.key ≤ b.key))

-- The keys of the expired CTE: ORDER BY limits.reset_at, limits.key LIMIT $1.
def expiredKeys (table : Counters) (now : Int) (limit : Nat) : List String :=
  (((table.rows.filter (Counter.expired now)).mergeSort pruneOrder).take limit).map Counter.key

-- DELETE ... WHERE limits.key = expired.key AND limits.reset_at <= db_clock.now
def prune (table : Counters) (now : Int) (limit : Nat) : Counters :=
  (table.delete (fun row => (expiredKeys table now limit).contains row.key && row.expired now)).1

def consumed (now windowMs limit : Int) (row : Counter) : Counter :=
  { row with
    attempts := if row.resetAt ≤ now then 1 else min (row.attempts + 1) (limit + 1)
    resetAt := if row.resetAt ≤ now then now + interval windowMs else row.resetAt
    updatedAt := now }

def consumeAssign (key : String) (now windowMs limit : Int) :
    Assign limits (fun other => decide (limits.index other = some key)) where
  set := consumed now windowMs limit
  keepsKey _ _ := rfl
  keepsIndex _ _ := rfl

-- INSERT ... ON CONFLICT (key) DO UPDATE ... RETURNING attempts, reset_at.
-- QueryRow scans the one row; no row at all is sql.ErrNoRows.
def consume (table : Counters) (now : Int) (key : String) (windowMs limit : Int) :
    Except SqlError (Counters × Counter) :=
  match table.upsert ⟨key, 1, now + interval windowMs, now⟩ key (consumeAssign key now windowMs limit) with
  | .error err => .error err
  | .ok (_, []) => .error .noRows
  | .ok (next, row :: _) => .ok (next, row)

-- What Take makes of the scanned attempts and reset_at and of db_clock.now.
def decision (policy : Policy) (row : Counter) (databaseNow : Int) : Except Err Decision :=
  if row.attempts < 1 ∨ row.attempts > policy.limit + 1 ∨ isZero row.resetAt ∨ isZero databaseNow then
    .error .counterState
  else if row.attempts ≤ policy.limit then .ok allow
  else
    let retryAfter := if sub row.resetAt databaseNow < 0 then 0 else sub row.resetAt databaseNow
    if retryAfter > policy.window + second then .error .resetTime else .ok (deny retryAfter)

-- Prune and Take are statements of their own, so each reads the clock; the time
-- its caller passes is not used.
def take (pruneLimit : Nat) (table : Counters) (ctxErr : Option ContextErr) (key : String) (policy : Policy)
    (prunedAt now : Nat) : Except Err Decision × Counters :=
  match validateKey key with
  | some err => (.error err, table)
  | none =>
    match validatePolicy policy with
    | some err => (.error err, table)
    | none =>
      match ctxErr with
      | some err => (.error (.context err), table)
      | none =>
        let pruned := prune table (timestamptz prunedAt) pruneLimit
        match consume pruned (timestamptz now) key (milliseconds policy.window) policy.limit with
        | .error err => (.error (.consume err), pruned)
        | .ok (next, row) => (decision policy row (timestamptz now), next)

def reset (table : Counters) (ctxErr : Option ContextErr) (key : String) : Except Err Unit × Counters :=
  match validateKey key with
  | some err => (.error err, table)
  | none =>
    match ctxErr with
    | some err => (.error (.context err), table)
    | none => (.ok (), (table.delete (fun row => decide (row.key = key))).1)

theorem valid_key {key : String} (valid : validateKey key = none) :
    key.utf8ByteSize = 64 ∧ hashedKeyPattern.accepts key = true := by
  unfold validateKey at valid
  split at valid
  · cases valid
  rename_i accepted
  exact ⟨not_not.mp (not_or.mp accepted).1, not_not.mp (not_or.mp accepted).2⟩

structure Accepted (policy : Policy) : Prop where
  least : 1 ≤ policy.limit
  most : policy.limit + 1 ≤ maxAttempts
  positive : 0 < policy.window
  whole : interval (milliseconds policy.window) = policy.window

theorem valid_policy {policy : Policy} (valid : validatePolicy policy = none) : Accepted policy := by
  unfold validatePolicy at valid
  split at valid
  · cases valid
  rename_i limits
  split at valid
  · cases valid
  rename_i windows
  obtain ⟨few, many⟩ := not_or.mp limits
  obtain ⟨short, rest⟩ := not_or.mp windows
  have exact := not_not.mp (not_or.mp rest).2
  have total := Int.mul_tdiv_add_tmod policy.window millisecond
  unfold maximumPolicy at many
  refine ⟨by omega, by omega, ?_, ?_⟩
  · unfold millisecond at short
    omega
  · unfold interval milliseconds
    rw [Int.mul_comm]
    omega

theorem holder_find (table : Counters) (key : String) : table.holder key = table.find key := by
  unfold Table.holder Table.find
  congr 1
  funext row
  exact decide_eq_decide.mpr Option.some_inj

theorem prune_find (table : Counters) (now : Int) (limit : Nat) (key : String) :
    ∃ removed : Counter → Bool, (prune table now limit).find key = (table.find key).filter (fun row => !removed row) ∧
      ∀ row, removed row = true → row.resetAt ≤ now := by
  refine ⟨_, find_delete table _ key, ?_⟩
  intro row removed
  exact of_decide_eq_true (Bool.and_eq_true_iff.mp removed).2

def consumedRow (old : Option Counter) (key : String) (now windowMs limit : Int) : Counter :=
  match old with
  | none => ⟨key, 1, now + interval windowMs, now⟩
  | some row => consumed now windowMs limit row

theorem consumed_checked {row : Counter} (now windowMs : Int) {limit : Int} (checked : limits.check row = true)
    (least : 1 ≤ limit) (most : limit + 1 ≤ maxAttempts) : limits.check (consumed now windowMs limit row) = true := by
  simp only [limits, Bool.and_eq_true, decide_eq_true_eq] at checked ⊢
  refine ⟨checked.1, ?_⟩
  have room : (1 : Int) ≤ maxAttempts := by decide
  unfold consumed
  simp only
  split <;> omega

theorem consume_returns (table : Counters) (now : Int) {key : String} (windowMs : Int) {limit : Int}
    (valid : validateKey key = none) (least : 1 ≤ limit) (most : limit + 1 ≤ maxAttempts) :
    ∃ next, consume table now key windowMs limit = .ok (next, consumedRow (table.find key) key now windowMs limit) ∧
      ∀ other, next.find other =
        if key = other then some (consumedRow (table.find key) key now windowMs limit) else table.find other := by
  have proposed : limits.check ⟨key, 1, now + interval windowMs, now⟩ = true := by
    obtain ⟨length, pattern⟩ := valid_key valid
    have room : (1 : Int) ≤ 1 ∧ 1 ≤ maxAttempts := by decide
    simp only [limits, length, pattern, decide_true, Bool.and_self, decide_eq_true room]
  unfold consume Table.upsert
  rw [if_pos proposed, holder_find]
  cases found : table.find key with
  | none =>
    obtain ⟨next, inserted⟩ := insert_succeeds table proposed found
      (by rintro _ ⟨⟩; exact (holder_find table key).trans found)
    refine ⟨next, ?_, ?_⟩
    · simp only [inserted, Except.map, consumedRow]
    · exact insert_find table next _ inserted
  | some row =>
    obtain ⟨member, keyed⟩ := (find_some_iff table key row).mp found
    obtain rfl : row.key = key := keyed
    have pinned : table.rows.filter (fun other => decide (limits.index other = some row.key)) = [row] := by
      refine filter_single member (decide_eq_true rfl) ?_
      intro other present same
      have otherFound := (find_some_iff table row.key other).mpr ⟨present, Option.some.inj (of_decide_eq_true same)⟩
      exact Option.some.inj (otherFound.symm.trans found)
    obtain ⟨next, updated⟩ := update_succeeds (consumeAssign row.key now windowMs limit)
      (fun other present _ => consumed_checked now windowMs (table.checked other present) least most)
    rw [pinned] at updated
    refine ⟨next, by simp only [updated]; rfl, ?_⟩
    intro other
    rw [update_ok _ updated other]
    by_cases same : row.key = other
    · subst same
      rw [if_pos rfl, found]
      simp only [Option.map_some, limits, decide_true, if_true]
      rfl
    · rw [if_neg same]
      cases here : table.find other with
      | none => rfl
      | some found =>
        have apart : found.key ≠ row.key := fun equal => same (equal.symm.trans (find_key here))
        simp only [Option.map_some, limits, Option.some.injEq, apart, decide_false, Bool.false_eq_true, if_false]

end Goforge.RateLimit.Postgres
