import Goforge.Lib.GoMap
import Goforge.Lib.GoString
import Goforge.Lib.GoTime
import Mathlib.Data.List.Sort

set_option autoImplicit false

namespace Goforge.Sessions

open GoMap GoString

-- A json.RawMessage.
abbrev Raw := String

-- The key is a Go string, bytes that need not be UTF-8.
abbrev Values := Map Bytes Raw

structure Payload where
  issuedAt : Int
  values : Values
  flash : Values

-- A map as it comes back from json.Marshal and json.Unmarshal: the entries are
-- written in the order of their keys, an invalid byte of a key as U+FFFD, and of
-- two entries with the same key the second is kept.
def encodeKeys (values : Values) : Values :=
  (values.entries.insertionSort (fun a b => before a.1 b.1 = true)).foldl
    (fun decoded entry => decoded.insert (toValidUtf8 entry.1) entry.2) ∅

def Payload.encoded (stored : Payload) : Payload :=
  { stored with values := encodeKeys stored.values, flash := encodeKeys stored.flash }

-- What a row holds: a payload as json.Marshal writes it, which keeps the
-- nanoseconds of the time, or bytes that json.Unmarshal rejects, none for nil.
inductive Encoded where
  | payload (stored : Payload)
  | malformed (bytes : Option Bytes)

inductive StoreErr where
  | notFound
  | alreadyExists
  | other (text : String)
deriving DecidableEq, Repr

-- The lineage is ghost state: the number of the session whose values a row or
-- a session object holds.
structure Row where
  value : Encoded
  expiresAt : Int
  lineage : Option Nat

structure MemoryStore where
  entries : Map String Row

def Row.current (now : Int) (row : Row) : Bool := decide (now < row.expiresAt)

def MemoryStore.get (store : MemoryStore) (now : Int) (id : String) : Except StoreErr Row × MemoryStore :=
  match store.entries.lookup id with
  | none => (.error .notFound, store)
  | some entry => if !entry.current now then (.error .notFound, ⟨store.entries.erase id⟩) else (.ok entry, store)

def MemoryStore.create (store : MemoryStore) (now : Int) (id : String) (row : Row) :
    Except StoreErr Unit × MemoryStore :=
  match store.entries.lookup id with
  | none => (.ok (), ⟨store.entries.insert id row⟩)
  | some entry =>
    if entry.current now then (.error .alreadyExists, store)
    else (.ok (), ⟨(store.entries.erase id).insert id row⟩)

def MemoryStore.update (store : MemoryStore) (now : Int) (id : String) (row : Row) :
    Except StoreErr Unit × MemoryStore :=
  match store.entries.lookup id with
  | none => (.error .notFound, store)
  | some entry =>
    if !entry.current now then (.error .notFound, ⟨store.entries.erase id⟩)
    else (.ok (), ⟨store.entries.insert id row⟩)

-- The store reads its clock for each entry; under the mutex one reading stands
-- for both.
def MemoryStore.rotate (store : MemoryStore) (now : Int) (oldID newID : String) (row : Row) :
    Except StoreErr Unit × MemoryStore :=
  match store.entries.lookup oldID with
  | none => (.error .notFound, store)
  | some oldEntry =>
    if !oldEntry.current now then (.error .notFound, ⟨store.entries.erase oldID⟩)
    else
      match store.entries.lookup newID with
      | none => (.ok (), ⟨(store.entries.insert newID row).erase oldID⟩)
      | some newEntry =>
        if newEntry.current now then (.error .alreadyExists, store)
        else (.ok (), ⟨((store.entries.erase newID).insert newID row).erase oldID⟩)

def MemoryStore.delete (store : MemoryStore) (id : String) : Except StoreErr Unit × MemoryStore :=
  (.ok (), ⟨store.entries.erase id⟩)

inductive StoreCall where
  | get (id : String)
  | create (id : String) (row : Row)
  | update (id : String) (row : Row)
  | rotate (oldID newID : String) (row : Row)
  | delete (id : String)

abbrev StoreCall.Reply : StoreCall → Type
  | .get _ => Except StoreErr Row
  | _ => Except StoreErr Unit

def MemoryStore.call (store : MemoryStore) (now : Int) : (call : StoreCall) → call.Reply × MemoryStore
  | .get id => store.get now id
  | .create id row => store.create now id row
  | .update id row => store.update now id row
  | .rotate oldID newID row => store.rotate now oldID newID row
  | .delete id => store.delete id

abbrev Rows := String → Option Row

def Rows.set (rows : Rows) (id : String) (row : Option Row) : Rows :=
  fun other => if other = id then row else rows other

def Rows.live (rows : Rows) (now : Int) (id : String) : Option Row := (rows id).filter (Row.current now)

-- The documented contract of Store. Where it is silent (an expired row that is
-- still there, a Delete of nothing) either answer is allowed.
inductive StoreStep (now : Int) (rows : Rows) : (call : StoreCall) → call.Reply → Rows → Prop where
  | found (id : String) (row : Row) (live : rows.live now id = some row) :
      StoreStep now rows (.get id) (.ok row) rows
  | missing (id : String) (gone : rows.live now id = none) :
      StoreStep now rows (.get id) (.error .notFound) rows
  | created (id : String) (row : Row) (free : rows.live now id = none) :
      StoreStep now rows (.create id row) (.ok ()) (rows.set id (some row))
  | taken (id : String) (row : Row) (present : rows id ≠ none) :
      StoreStep now rows (.create id row) (.error .alreadyExists) rows
  | updated (id : String) (old row : Row) (live : rows.live now id = some old) :
      StoreStep now rows (.update id row) (.ok ()) (rows.set id (some row))
  | stale (id : String) (row : Row) (gone : rows.live now id = none) :
      StoreStep now rows (.update id row) (.error .notFound) rows
  | rotated (oldID newID : String) (old row : Row) (live : rows.live now oldID = some old)
      (free : rows.live now newID = none) :
      StoreStep now rows (.rotate oldID newID row) (.ok ()) ((rows.set newID (some row)).set oldID none)
  | replaced (oldID newID : String) (row : Row) (gone : rows.live now oldID = none) :
      StoreStep now rows (.rotate oldID newID row) (.error .notFound) rows
  | collided (oldID newID : String) (old row : Row) (live : rows.live now oldID = some old)
      (present : rows newID ≠ none) :
      StoreStep now rows (.rotate oldID newID row) (.error .alreadyExists) rows
  | deleted (id : String) : StoreStep now rows (.delete id) (.ok ()) (rows.set id none)
  | absent (id : String) (gone : rows.live now id = none) :
      StoreStep now rows (.delete id) (.error .notFound) rows

def Purged (now : Int) (rows purged : Rows) : Prop :=
  ∀ id, purged id = rows id ∨ (purged id = none ∧ rows.live now id = none)

theorem purged_refl (now : Int) {rows : Rows} : Purged now rows rows := fun _ => .inl rfl

def MemoryStore.rows (store : MemoryStore) : Rows := fun id => store.entries.lookup id

theorem insert_rows (entries : Map String Row) (id : String) (row : Row) :
    (MemoryStore.mk (entries.insert id row)).rows = (MemoryStore.mk entries).rows.set id (some row) := by
  funext other
  by_cases same : other = id
  · subst same
    exact (AList.lookup_insert _).trans (if_pos rfl).symm
  · exact (AList.lookup_insert_ne same).trans (if_neg same).symm

theorem erase_rows (entries : Map String Row) (id : String) :
    (MemoryStore.mk (entries.erase id)).rows = (MemoryStore.mk entries).rows.set id none := by
  funext other
  by_cases same : other = id
  · subst same
    exact (AList.lookup_erase _ _).trans (if_pos rfl).symm
  · exact (AList.lookup_erase_ne same).trans (if_neg same).symm

theorem set_set (rows : Rows) (id : String) (first second : Option Row) :
    (rows.set id first).set id second = rows.set id second := by
  funext other
  by_cases same : other = id <;> simp [Rows.set, same]

variable {id : String} {now : Int}

theorem live_none {rows : Rows} (now : Int) (none : rows id = none) : rows.live now id = Option.none := by
  rw [Rows.live, none]
  rfl

theorem live_some (rows : Rows) {row : Row} (found : rows id = some row) (current : row.current now = true) :
    rows.live now id = some row := by
  rw [Rows.live, found]
  exact Option.filter_some_pos current

theorem live_expired (rows : Rows) {row : Row} (found : rows id = some row) (expired : row.current now = false) :
    rows.live now id = none := by
  rw [Rows.live, found]
  exact Option.filter_some_neg (by simp [expired])

theorem purged_erase {store : MemoryStore} (gone : store.rows.live now id = none) :
    Purged now store.rows (MemoryStore.mk (store.entries.erase id)).rows := by
  intro other
  rw [erase_rows]
  by_cases same : other = id
  · subst same
    exact .inr ⟨if_pos rfl, gone⟩
  · exact .inl (if_neg same)

-- The memory store answers as the contract says, and drops expired rows it
-- comes across.
theorem memory_store_contract (store : MemoryStore) (now : Int) (call : StoreCall) :
    ∃ rows, StoreStep now store.rows call (store.call now call).1 rows ∧
      Purged now rows (store.call now call).2.rows := by
  cases call with
  | get id =>
    simp only [MemoryStore.call, MemoryStore.get]
    cases found : store.entries.lookup id with
    | none => exact ⟨_, .missing id (live_none now found), purged_refl now⟩
    | some entry =>
      dsimp only
      cases current : entry.current now with
      | true => exact ⟨_, .found id entry (live_some _ found current), purged_refl now⟩
      | false =>
        have gone := live_expired store.rows found current
        exact ⟨_, .missing id gone, purged_erase gone⟩
  | create id row =>
    simp only [MemoryStore.call, MemoryStore.create]
    cases found : store.entries.lookup id with
    | none =>
      refine ⟨_, .created id row (live_none now found), ?_⟩
      rw [insert_rows]
      exact purged_refl now
    | some entry =>
      dsimp only
      cases current : entry.current now with
      | true => exact ⟨_, .taken id row (by simp [MemoryStore.rows, found]), purged_refl now⟩
      | false =>
        refine ⟨_, .created id row (live_expired store.rows found current), ?_⟩
        simp only [Bool.false_eq_true, if_false, insert_rows, erase_rows, set_set]
        exact purged_refl now
  | update id row =>
    simp only [MemoryStore.call, MemoryStore.update]
    cases found : store.entries.lookup id with
    | none => exact ⟨_, .stale id row (live_none now found), purged_refl now⟩
    | some entry =>
      dsimp only
      cases current : entry.current now with
      | true =>
        refine ⟨_, .updated id entry row (live_some _ found current), ?_⟩
        simp only [Bool.not_true, Bool.false_eq_true, if_false, insert_rows]
        exact purged_refl now
      | false =>
        have gone := live_expired store.rows found current
        exact ⟨_, .stale id row gone, purged_erase gone⟩
  | rotate oldID newID row =>
    simp only [MemoryStore.call, MemoryStore.rotate]
    cases found : store.entries.lookup oldID with
    | none => exact ⟨_, .replaced oldID newID row (live_none now found), purged_refl now⟩
    | some entry =>
      dsimp only
      cases current : entry.current now with
      | false =>
        have gone := live_expired store.rows found current
        exact ⟨_, .replaced oldID newID row gone, purged_erase gone⟩
      | true =>
        have live := live_some store.rows found current
        simp only [Bool.not_true, Bool.false_eq_true, if_false]
        cases other : store.entries.lookup newID with
        | none =>
          refine ⟨_, .rotated oldID newID entry row live (live_none now other), ?_⟩
          simp only [insert_rows, erase_rows]
          exact purged_refl now
        | some newEntry =>
          dsimp only
          cases fresh : newEntry.current now with
          | true =>
            exact ⟨_, .collided oldID newID entry row live (by simp [MemoryStore.rows, other]),
              purged_refl now⟩
          | false =>
            refine ⟨_, .rotated oldID newID entry row live
              (live_expired store.rows other fresh), ?_⟩
            simp only [Bool.false_eq_true, if_false, insert_rows, erase_rows, set_set]
            exact purged_refl now
  | delete id =>
    refine ⟨_, .deleted id, ?_⟩
    simp only [MemoryStore.call, MemoryStore.delete, erase_rows]
    exact purged_refl now

end Goforge.Sessions
