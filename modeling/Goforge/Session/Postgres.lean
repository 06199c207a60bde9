import Goforge.Session.Store

set_option autoImplicit false

namespace Goforge.Sessions

open GoMap GoTime

abbrev SessionTable := Map String Row

-- id VARCHAR(64)
def idFits (id : String) : Bool := decide (id.length ≤ 64 ∧ '\x00' ∉ id.toList)

def postgresEpoch : Int := 946684800000000

-- A time as a TIMESTAMPTZ parameter: the driver counts microseconds from the year
-- 2000 in an int64, and the server refuses what is outside its range.
def timestamptzParameter (t : Int) : Option Int :=
  let micros := (t / 1000 - postgresEpoch).bmod (2 ^ 64)
  if -211813488000000000 ≤ micros ∧ micros < 9223371331200000000 then some ((micros + postgresEpoch) * 1000) else none

-- payload BYTEA NOT NULL
def Encoded.isNull : Encoded → Bool
  | .malformed none => true
  | _ => false

structure Row.Fits (row : Row) : Prop where
  filled : row.value.isNull = false
  ranged : timestamptzParameter row.expiresAt = some row.expiresAt

-- DELETE FROM sessions WHERE id = $1 AND ..., with the number of rows.
def deleteRow (table : SessionTable) (id : String) (pred : Row → Bool) : SessionTable × Nat :=
  match table.lookup id with
  | none => (table, 0)
  | some row => if pred row then (table.erase id, 1) else (table, 0)

def Row.expired (now : Int) (row : Row) : Bool := decide (row.expiresAt ≤ now)

-- The ids of the subquery: ORDER BY expires_at LIMIT 100.
def prunedIDs (table : SessionTable) (now : Int) (id : String) : List String :=
  (((table.entries.filter (fun entry => entry.2.expired now && decide (entry.1 ≠ id))).mergeSort
    (fun a b => decide (a.2.expiresAt ≤ b.2.expiresAt))).take 100).map Sigma.fst

def postgresSessionWriteError (action : String) (code : String) : StoreErr :=
  if code = "23505" then .alreadyExists else .other (action ++ " PostgreSQL session")

-- INSERT INTO sessions, or the code of its error.
def insertRow (table : SessionTable) (id : String) (row : Row) : Except String SessionTable :=
  match timestamptzParameter row.expiresAt with
  | none => .error "22008"
  | some expiresAt =>
    if !idFits id then .error "22001"
    else if row.value.isNull then .error "23502"
    else
      match table.lookup id with
      | some _ => .error "23505"
      | none => .ok (table.insert id { row with expiresAt := expiresAt })

namespace PostgresSessionStore

def get (table : SessionTable) (now : Int) (id : String) : Except StoreErr Row × SessionTable :=
  match (table.lookup id).filter (Row.current now) with
  | some row => (.ok row, table)
  | none => (.error .notFound, (deleteRow table id (Row.expired now)).1)

-- A transaction that fails leaves the table as it was.
def create (table : SessionTable) (now : Int) (id : String) (row : Row) : Except StoreErr Unit × SessionTable :=
  let cleared := (deleteRow table id (Row.expired now)).1
  let pruned := (prunedIDs cleared now id).foldl (fun table id => table.erase id) cleared
  match insertRow pruned id row with
  | .error code => (.error (postgresSessionWriteError "create" code), table)
  | .ok next => (.ok (), next)

-- A parameter is refused whatever the table holds, a null only for a row to set it in.
def update (table : SessionTable) (now : Int) (id : String) (row : Row) : Except StoreErr Unit × SessionTable :=
  match timestamptzParameter row.expiresAt with
  | none => (.error (.other "update PostgreSQL session"), table)
  | some expiresAt =>
    match (table.lookup id).filter (Row.current now) with
    | some _ =>
      if row.value.isNull then (.error (.other "update PostgreSQL session"), table)
      else (.ok (), table.insert id { row with expiresAt := expiresAt })
    | none => (.error .notFound, (deleteRow table id (Row.expired now)).1)

def rotate (table : SessionTable) (now : Int) (oldID newID : String) (row : Row) :
    Except StoreErr Unit × SessionTable :=
  match deleteRow table oldID (Row.current now) with
  | (_, 0) => (.error .notFound, table)
  | (remaining, _) =>
    match insertRow remaining newID row with
    | .error code => (.error (postgresSessionWriteError "rotate" code), table)
    | .ok next => (.ok (), next)

def delete (table : SessionTable) (id : String) : Except StoreErr Unit × SessionTable := (.ok (), table.erase id)

def call (table : SessionTable) (now : Int) : (call : StoreCall) → call.Reply × SessionTable
  | .get id => get table now id
  | .create id row => create table now id row
  | .update id row => update table now id row
  | .rotate oldID newID row => rotate table now oldID newID row
  | .delete id => delete table id

end PostgresSessionStore

def Rows.view (rows : Rows) (now : Int) : Rows := fun id => rows.live now id

def Rows.held (now : Int) (row : Row) : Option Row := (some row).filter (Row.current now)

def Rows.answer (now : Int) (live : Rows) : (call : StoreCall) → call.Reply × Rows
  | .get id =>
    match live id with
    | none => (.error .notFound, live)
    | some row => (.ok row, live)
  | .create id row =>
    match live id with
    | none => (.ok (), live.set id (Rows.held now row))
    | some _ => (.error .alreadyExists, live)
  | .update id row =>
    match live id with
    | none => (.error .notFound, live)
    | some _ => (.ok (), live.set id (Rows.held now row))
  | .rotate oldID newID row =>
    match live oldID, live newID with
    | none, _ => (.error .notFound, live)
    | some _, none => (.ok (), (live.set newID (Rows.held now row)).set oldID none)
    | some _, some _ => (.error .alreadyExists, live)
  | .delete id => (.ok (), live.set id none)

variable {row : Row} (rows : Rows)

theorem view_set (now : Int) (id : String) (row : Option Row) :
    (rows.set id row).view now = (rows.view now).set id (row.filter (Row.current now)) := by
  funext other
  by_cases same : other = id <;> simp [Rows.view, Rows.live, Rows.set, same]

variable {id : String} {now : Int}

theorem set_gone {rows : Rows} (gone : rows id = none) : rows.set id none = rows := by
  funext other
  by_cases same : other = id
  · rw [Rows.set, if_pos same, same, gone]
  · rw [Rows.set, if_neg same]

variable (store : MemoryStore)

theorem stored_read (now : Int) (id : String) :
    store.rows.view now id = none ∧ store.entries.lookup id = none ∨ ∃ entry, store.entries.lookup id = some entry ∧
      (store.rows.view now id = none ∧ entry.current now = false ∨
        store.rows.view now id = some entry ∧ entry.current now = true) := by
  cases found : store.entries.lookup id with
  | none => exact .inl ⟨live_none now found, rfl⟩
  | some entry =>
    cases current : entry.current now with
    | false => exact .inr ⟨entry, rfl, .inl ⟨live_expired store.rows found current, current⟩⟩
    | true => exact .inr ⟨entry, rfl, .inr ⟨live_some store.rows found current, current⟩⟩

theorem erase_view {store : MemoryStore} (gone : store.rows.view now id = none) :
    (MemoryStore.mk (store.entries.erase id)).rows.view now = store.rows.view now := by
  rw [erase_rows, view_set]
  exact set_gone gone

theorem insert_view (now : Int) (id : String) (row : Row) :
    (MemoryStore.mk (store.entries.insert id row)).rows.view now = (store.rows.view now).set id
    (Rows.held now row) := by
  rw [insert_rows, view_set, Rows.held]

theorem memory_answers (now : Int) (call : StoreCall) :
    ((store.call now call).1, (store.call now call).2.rows.view now) = (store.rows.view now).answer now call := by
  cases call with
  | get id =>
    rw [MemoryStore.call, MemoryStore.get, Rows.answer]
    rcases stored_read store now id with ⟨view, found⟩ | ⟨entry, found, ⟨view, current⟩ | ⟨view, current⟩⟩
    · rw [found, view]
    · rw [found, view]
      simp only [current, Bool.not_false, if_true, erase_view view]
    · rw [found, view]
      simp only [current, Bool.not_true, Bool.false_eq_true, if_false]
  | create id row =>
    rw [MemoryStore.call, MemoryStore.create, Rows.answer]
    rcases stored_read store now id with ⟨view, found⟩ | ⟨entry, found, ⟨view, current⟩ | ⟨view, current⟩⟩
    · rw [found, view]
      exact congrArg (Prod.mk _) (insert_view store now id row)
    · rw [found, view]
      simp only [current, Bool.false_eq_true, if_false]
      rw [insert_view ⟨store.entries.erase id⟩, erase_view view]
    · rw [found, view]
      simp only [current, if_true]
  | update id row =>
    rw [MemoryStore.call, MemoryStore.update, Rows.answer]
    rcases stored_read store now id with ⟨view, found⟩ | ⟨entry, found, ⟨view, current⟩ | ⟨view, current⟩⟩
    · rw [found, view]
    · rw [found, view]
      simp only [current, Bool.not_false, if_true, erase_view view]
    · rw [found, view]
      simp only [current, Bool.not_true, Bool.false_eq_true, if_false]
      rw [insert_view]
  | rotate oldID newID row =>
    rw [MemoryStore.call, MemoryStore.rotate, Rows.answer]
    rcases stored_read store now oldID with ⟨view, found⟩ | ⟨entry, found, ⟨view, current⟩ | ⟨view, current⟩⟩
    · rw [found, view]
    · rw [found, view]
      simp only [current, Bool.not_false, if_true, erase_view view]
    · rw [found, view]
      simp only [current, Bool.not_true, Bool.false_eq_true, if_false]
      rcases stored_read store now newID with ⟨other, free⟩ | ⟨taken, free, ⟨other, fresh⟩ | ⟨other, fresh⟩⟩
      · rw [free, other]
        simp only [erase_rows, view_set, insert_view, Option.filter_none]
      · rw [free, other]
        simp only [fresh, Bool.false_eq_true, if_false]
        rw [erase_rows, view_set, insert_view ⟨store.entries.erase newID⟩, erase_view other, Option.filter_none]
      · rw [free, other]
        simp only [fresh, if_true]
  | delete id =>
    rw [MemoryStore.call, MemoryStore.delete, Rows.answer, erase_rows, view_set, Option.filter_none]

def tableRows (table : SessionTable) : Rows := (MemoryStore.mk table).rows

variable (table : SessionTable)

theorem view_lookup (now : Int) (id : String) :
    (table.lookup id).filter (Row.current now) = (tableRows table).view now id := rfl

theorem expired_current (now : Int) (row : Row) : row.expired now = !row.current now := by
  simp only [Row.expired, Row.current, ← decide_not, Int.not_lt]

theorem pruned_view {ids : List String} (gone : ∀ id ∈ ids, (tableRows table).view now id = none) :
    (tableRows (ids.foldl (fun table id => table.erase id) table)).view now = (tableRows table).view now := by
  induction ids generalizing table with
  | nil => rfl
  | cons id rest ih =>
    have same := erase_view (gone id List.mem_cons_self)
    rw [List.foldl_cons, ih (table.erase id), tableRows, same]
    · rfl
    · intro other member
      rw [tableRows, same]
      exact gone other (List.mem_cons_of_mem id member)

theorem pruned_gone {table : SessionTable} {other : String} (member : other ∈ prunedIDs table now id) :
    other ≠ id ∧ (tableRows table).view now other = none := by
  obtain ⟨entry, taken, rfl⟩ := List.mem_map.mp member
  obtain ⟨held, gone⟩ := List.mem_filter.mp (List.mem_mergeSort.mp (List.mem_of_mem_take taken))
  obtain ⟨expired, apart⟩ := Bool.and_eq_true_iff.mp gone
  refine ⟨of_decide_eq_true apart, live_expired _ ((lookup_mem _ _ _).mpr held) ?_⟩
  simpa [expired_current] using expired

theorem pruned_lookup {ids : List String} (apart : ∀ other ∈ ids, other ≠ id) :
    (ids.foldl (fun table id => table.erase id) table).lookup id = table.lookup id := by
  induction ids generalizing table with
  | nil => rfl
  | cons other rest ih =>
    obtain ⟨here, later⟩ := List.forall_mem_cons.mp apart
    rw [List.foldl_cons, ih (table.erase other) later]
    exact AList.lookup_erase_ne (Ne.symm here)

def StoreCall.Fits : StoreCall → Prop
  | .get id => idFits id = true
  | .create id row => idFits id = true ∧ row.Fits
  | .update id row => idFits id = true ∧ row.Fits
  | .rotate oldID newID row => (idFits oldID = true ∧ idFits newID = true ∧ row.Fits) ∧ oldID ≠ newID
  | .delete id => idFits id = true

def StoreCall.Collides (rows : Rows) (now : Int) : StoreCall → Prop
  | .rotate oldID newID _ => rows.view now oldID ≠ none ∧ rows.view now newID = none ∧ rows newID ≠ none
  | _ => False

theorem insert_row (fits : idFits id = true) (sound : row.Fits) :
    insertRow table id row = if (table.lookup id).isSome then .error "23505" else .ok (table.insert id row) := by
  rw [insertRow, sound.ranged, fits, sound.filled]
  cases table.lookup id <;> rfl

theorem delete_row (id : String) (pred : Row → Bool) :
    deleteRow table id pred = if ((table.lookup id).filter pred).isSome then (table.erase id, 1) else (table, 0) := by
  rw [deleteRow]
  cases table.lookup id with
  | none => rfl
  | some row => cases chosen : pred row <;> simp [Option.filter_some, chosen]

theorem cleared_view (now : Int) (id : String) :
    (tableRows (deleteRow table id (Row.expired now)).1).view now = (tableRows table).view now := by
  rw [delete_row]
  split
  case isTrue gone =>
    obtain ⟨row, found⟩ := Option.isSome_iff_exists.mp gone
    obtain ⟨found, expired⟩ := Option.filter_eq_some_iff.mp found
    rw [expired_current, Bool.not_eq_true'] at expired
    exact erase_view (live_expired _ found expired)
  case isFalse => rfl

theorem cleared_lookup (now : Int) (id : String) :
    (deleteRow table id (Row.expired now)).1.lookup id = (tableRows table).view now id := by
  rw [deleteRow]
  change _ = (table.lookup id).filter (Row.current now)
  cases found : table.lookup id with
  | none => exact found
  | some row =>
    cases current : row.current now with
    | false =>
      rw [Option.filter_some_neg (by simp [current])]
      simp only [expired_current, current, Bool.not_false, if_true]
      exact AList.lookup_erase id table
    | true =>
      rw [Option.filter_some_pos current]
      simp only [expired_current, current, Bool.not_true, Bool.false_eq_true, if_false]
      exact found

theorem postgres_create (now : Int) (fits : idFits id = true) (sound : row.Fits) :
    ((PostgresSessionStore.create table now id row).1,
        (tableRows (PostgresSessionStore.create table now id row).2).view now) =
      ((tableRows table).view now).answer now (.create id row) := by
  have views := cleared_view table now id
  have held := cleared_lookup table now id
  rw [PostgresSessionStore.create, Rows.answer]
  generalize (deleteRow table id (Row.expired now)).1 = cleared at views held ⊢
  have gone : ∀ other ∈ prunedIDs cleared now id, other ≠ id ∧ (tableRows cleared).view now other = none :=
    fun other member => pruned_gone member
  have pruned := pruned_view cleared (fun other member => (gone other member).2)
  have kept := pruned_lookup cleared (fun other member => (gone other member).1)
  generalize (prunedIDs cleared now id).foldl (fun table id => table.erase id) cleared = left at pruned kept ⊢
  rw [insert_row left fits sound, kept, held]
  cases view : (tableRows table).view now id with
  | some other => rfl
  | none => exact congrArg (Prod.mk _) ((insert_view ⟨left⟩ now id row).trans (by rw [← views, ← pruned]; rfl))

theorem postgres_rotate_live {now : Int} {oldID newID : String} (fits : (StoreCall.rotate oldID newID row).Fits)
    (live : (tableRows table).view now oldID ≠ none) :
    PostgresSessionStore.rotate table now oldID newID row =
      if (tableRows table newID).isSome then (.error .alreadyExists, table)
      else (.ok (), (table.erase oldID).insert newID row) := by
  have kept : (table.erase oldID).lookup newID = tableRows table newID := AList.lookup_erase_ne (Ne.symm fits.2)
  have inserted := insert_row (table.erase oldID) fits.1.2.1 fits.1.2.2
  rw [kept] at inserted
  rw [PostgresSessionStore.rotate, delete_row, view_lookup, if_pos (Option.isSome_iff_ne_none.mpr live)]
  simp only [inserted]
  cases tableRows table newID <;> rfl

theorem set_comm {first second : String} {a b : Option Row} (apart : first ≠ second) :
    (rows.set first a).set second b = (rows.set second b).set first a := by
  funext other
  by_cases here : other = first
  · simp [Rows.set, here, apart]
  · simp [Rows.set, here]

theorem postgres_answers {table : SessionTable} {call : StoreCall} (fits : call.Fits)
    (clear : ¬ call.Collides (tableRows table) now) :
    ((PostgresSessionStore.call table now call).1, (tableRows (PostgresSessionStore.call table now call).2).view now) =
      ((tableRows table).view now).answer now call := by
  cases call with
  | get id =>
    rw [PostgresSessionStore.call, PostgresSessionStore.get, Rows.answer, view_lookup]
    cases view : (tableRows table).view now id with
    | some row => rfl
    | none => exact congrArg (Prod.mk _) (cleared_view table now id)
  | create id row => exact postgres_create table now fits.1 fits.2
  | update id row =>
    rw [PostgresSessionStore.call, PostgresSessionStore.update, Rows.answer, fits.2.ranged, fits.2.filled]
    dsimp only
    rw [view_lookup]
    cases view : (tableRows table).view now id with
    | some old => exact congrArg (Prod.mk _) (insert_view ⟨table⟩ now id row)
    | none => exact congrArg (Prod.mk _) (cleared_view table now id)
  | rotate oldID newID row =>
    rw [PostgresSessionStore.call, Rows.answer]
    cases view : (tableRows table).view now oldID with
    | none =>
      rw [PostgresSessionStore.rotate, delete_row, view_lookup, view]
      rfl
    | some old =>
      have live : (tableRows table).view now oldID ≠ none := view ▸ Option.some_ne_none old
      cases other : (tableRows table).view now newID with
      | some taken =>
        have present : tableRows table newID ≠ none := by
          intro none
          rw [Rows.view, live_none now none] at other
          cases other
        rw [postgres_rotate_live table fits live, if_pos (Option.isSome_iff_ne_none.mpr present)]
      | none =>
        have free : tableRows table newID = none := by
          by_contra taken
          exact clear ⟨live, other, taken⟩
        rw [postgres_rotate_live table fits live, free, if_neg (by decide)]
        have views := insert_view ⟨table.erase oldID⟩ now newID row
        rw [erase_rows, view_set] at views
        exact congrArg (Prod.mk _) (views.trans (set_comm _ fits.2))
  | delete id =>
    rw [PostgresSessionStore.call, PostgresSessionStore.delete, Rows.answer]
    exact congrArg (Prod.mk _) ((congrArg (Rows.view · now) (erase_rows table id)).trans (view_set _ now id none))

def StoreCall.shown : (call : StoreCall) → call.Reply → Except StoreErr (Option Encoded)
  | .get _, reply => reply.map (fun row => some row.value)
  | .create _ _, reply => reply.map (fun _ => none)
  | .update _ _, reply => reply.map (fun _ => none)
  | .rotate _ _ _, reply => reply.map (fun _ => none)
  | .delete _, reply => reply.map (fun _ => none)

def storeAnswers {S : Type} (step : S → Int → (call : StoreCall) → call.Reply × S) :
    S → List (Int × StoreCall) → List (Except StoreErr (Option Encoded))
  | _, [] => []
  | s, (now, call) :: rest => call.shown (step s now call).1 :: storeAnswers step (step s now call).2 rest

def NeverCollides : SessionTable → List (Int × StoreCall) → Prop
  | _, [] => True
  | table, (now, call) :: rest =>
    ¬ call.Collides (tableRows table) now ∧ NeverCollides (PostgresSessionStore.call table now call).2 rest

theorem view_later {later : Int} (order : now ≤ later) : rows.view later = (rows.view now).view later := by
  funext id
  simp only [Rows.view, Rows.live]
  cases rows id with
  | none => rfl
  | some row =>
    by_cases current : now < row.expiresAt
    · simp [Option.filter_some, Row.current, current]
    · have past : ¬ later < row.expiresAt := by omega
      simp [Option.filter_some, Row.current, current, past]

theorem answers_agree (clock : Int) {trace : List (Int × StoreCall)}
    (ordered : (clock :: trace.map Prod.fst).Pairwise (· ≤ ·)) (fits : ∀ step ∈ trace, step.2.Fits)
    (same : store.rows.view clock = (tableRows table).view clock) :
    storeAnswers MemoryStore.call store trace = storeAnswers PostgresSessionStore.call table trace ↔
      NeverCollides table trace := by
  induction trace generalizing store table clock with
  | nil => exact iff_of_true rfl trivial
  | cons step rest ih =>
    obtain ⟨now, call⟩ := step
    obtain ⟨first, others⟩ := List.pairwise_cons.mp ordered
    have order : clock ≤ now := first now List.mem_cons_self
    obtain ⟨here, later⟩ := List.forall_mem_cons.mp fits
    have views : store.rows.view now = (tableRows table).view now := by
      rw [view_later store.rows order, same, ← view_later _ order]
    have memory := memory_answers store now call
    rw [views] at memory
    by_cases collides : call.Collides (tableRows table) now
    · refine iff_of_false ?_ (fun never => never.1 collides)
      cases call with
      | rotate oldID newID row =>
        obtain ⟨live, free, taken⟩ := collides
        have refused := postgres_rotate_live table here live
        rw [if_pos (Option.isSome_iff_ne_none.mpr taken)] at refused
        obtain ⟨entry, old⟩ := Option.ne_none_iff_exists'.mp live
        have rotated : (store.call now (.rotate oldID newID row)).1 = .ok () := by
          rw [congrArg Prod.fst memory]
          simp [Rows.answer, old, free]
        intro agree
        have replies := (List.cons.inj agree).1
        rw [rotated, PostgresSessionStore.call, refused] at replies
        cases replies
      | _ => exact absurd collides id
    · have postgres := postgres_answers here collides
      have replies : (store.call now call).1 = (PostgresSessionStore.call table now call).1 :=
        congrArg Prod.fst (memory.trans postgres.symm)
      have next := ih (store.call now call).2 (PostgresSessionStore.call table now call).2 now others later
        (congrArg Prod.snd (memory.trans postgres.symm))
      rw [storeAnswers, storeAnswers, replies, List.cons.injEq, NeverCollides]
      exact ⟨fun agree => ⟨collides, next.mp agree.2⟩, fun never => ⟨rfl, next.mpr never.2⟩⟩

theorem session_stores_agree_iff (trace : List (Int × StoreCall)) (ordered : (trace.map Prod.fst).Pairwise (· ≤ ·))
    (fits : ∀ step ∈ trace, step.2.Fits) :
    storeAnswers MemoryStore.call ⟨∅⟩ trace = storeAnswers PostgresSessionStore.call ∅ trace ↔
    NeverCollides ∅ trace := by
  cases trace with
  | nil => exact iff_of_true rfl trivial
  | cons step rest =>
    refine answers_agree ⟨∅⟩ ∅ step.1 ?_ fits rfl
    refine List.pairwise_cons.mpr ⟨fun now member => ?_, ordered⟩
    rcases List.mem_cons.mp member with rfl | inside
    · exact Int.le_refl _
    · exact (List.pairwise_cons.mp ordered).1 now inside

def sampleTrace : List (Int × StoreCall) :=
  [(0, .create "a" ⟨.malformed (some []), 9000, none⟩), (0, .create "b" ⟨.malformed (some []), 1000, none⟩),
    (2000, .rotate "a" "b" ⟨.malformed (some []), 9000, none⟩)]

theorem session_stores_agree_iff_before :
    storeAnswers MemoryStore.call ⟨∅⟩ (sampleTrace.take 2) = storeAnswers PostgresSessionStore.call ∅
      (sampleTrace.take 2) := by
  refine (session_stores_agree_iff (sampleTrace.take 2) (by decide) ?_).mpr ⟨id, id, trivial⟩
  intro step member
  rcases List.mem_cons.mp member with rfl | inside
  · exact ⟨by decide, rfl, by decide⟩
  · cases List.mem_singleton.mp inside
    exact ⟨by decide, rfl, by decide⟩

theorem rotate_onto_expired :
    storeAnswers MemoryStore.call ⟨∅⟩ sampleTrace = [.ok none, .ok none, .ok none] ∧
      storeAnswers PostgresSessionStore.call ∅ sampleTrace = [.ok none, .ok none, .error .alreadyExists] := by
  exact ⟨by rfl, by with_unfolding_all rfl⟩

end Goforge.Sessions
