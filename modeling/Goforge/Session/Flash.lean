import Goforge.Session.World
import Mathlib.Data.List.TakeWhile

set_option autoImplicit false

namespace Goforge.Sessions

open GoMap GoString GoTime Interleave Machine

-- Session.Get up to the decoding of the value it finds.
def Session.get (session : Session) (key : Bytes) : Option Raw :=
  (session.values.lookup key).or (session.oldFlash.lookup key)

-- What a request does with its session. A value that cannot be encoded is none.
inductive Op where
  | put (key : Bytes) (encoded : Option Raw)
  | flash (key : Bytes) (encoded : Option Raw)
  | forget (key : Bytes)
  | get (key : Bytes)
  | regenerate (rotation : Rotation)
  | save
deriving DecidableEq, Repr

def Op.permanent (key : Bytes) : Op → Option (Option Raw)
  | .put other (some value) => if other = key then some (some value) else none
  | .forget other => if other = key then some none else none
  | _ => none

def Op.flashed (key : Bytes) : Op → Option (Option Raw)
  | .flash other (some value) => if other = key then some (some value) else none
  | .forget other => if other = key then some none else none
  | _ => none

def latest (effect : Op → Option (Option Raw)) (ops : List Op) : Option Raw :=
  ops.foldl (fun value op => (effect op).getD value) none

def savedPart (ops : List Op) : List Op := (ops.reverse.dropWhile (fun op => decide (op ≠ .save))).reverse

def lastFlashed (key : Bytes) (earlier : List (List Op)) : Option Raw :=
  match (earlier.filter (fun ops => decide (.save ∈ ops))).getLast? with
  | none => none
  | some ops => latest (Op.flashed key) (savedPart ops)

def visibleFlash (key : Bytes) (earlier : List (List Op)) (ops : List Op) : Option Raw :=
  if .save ∈ ops ∨ .forget key ∈ ops then none else lastFlashed key earlier

def visible (key : Bytes) (earlier : List (List Op)) (ops : List Op) : Option Raw :=
  (latest (Op.permanent key) (earlier.flatMap savedPart ++ ops)).or (visibleFlash key earlier ops)

structure Visits where
  shared : Shared
  earlier : List (List Op)
  current : Option (List Op × Session)

inductive VisitLabel where
  | loads
  | does (op : Op)
  | ends
  | drifts
deriving DecidableEq, Repr

def cookieOf (s : Shared) : String := (s.cookies.head?.map Cookie.id).getD ""

-- One operation on the session object. A Save succeeds, and within the lifetime
-- of the session: it leaves an id.
def opStep (around : Surroundings) (policy : Policy) (session : Session) (s : Shared) :
    Op → Session → Shared → Prop
  | .put key encoded, after, t => after = (put key encoded session).2 ∧ t = s
  | .flash key encoded, after, t => after = (flash key encoded session).2 ∧ t = s
  | .forget key, after, t => after = forget key session ∧ t = s
  | .get _, after, t => after = session ∧ t = s
  | .regenerate rotation, after, t => ∃ result, Runs (world around) 0 (regenerate rotation session) s (result, after) t
  | .save, after, t => Runs (world around) 0 (save policy false session) s (.ok (), after) t ∧ after.id ≠ ""

def visitStep (around : Surroundings) (policy : Policy) (v : Visits) : VisitLabel → Visits → Prop
  | .loads, w => v.current = none ∧ ∃ session reading t,
      Runs (world around) 0 (load policy (cookieOf v.shared)) v.shared (.ok (session, reading)) t ∧
      session.persistedID = cookieOf v.shared ∧ w = { v with shared := t, current := some ([], session) }
  | .does op, w => ∃ ops session after t, v.current = some (ops, session) ∧
      opStep around policy session v.shared op after t ∧
      w = { v with shared := t, current := some (ops ++ [op], after) }
  | .ends, w => ∃ ops session, v.current = some (ops, session) ∧
      w = { v with earlier := v.earlier ++ [ops], current := none }
  | .drifts, w => ∃ t, (world around).drifts v.shared t ∧ w = { v with shared := t }

def visits (around : Surroundings) (policy : Policy) : System Visits VisitLabel where
  start v := Initial v.shared ∧ v.earlier = [] ∧ v.current = none
  step := visitStep around policy

def VisitLabel.valid : VisitLabel → Bool
  | .does (.put key _) => validUtf8 key
  | .does (.flash key _) => validUtf8 key
  | _ => true

theorem lookup_inserted {entries : List (Sigma (fun _ : Bytes => Raw))} (key : Bytes)
    (valid : ∀ entry ∈ entries, toValidUtf8 entry.1 = entry.1) (distinct : entries.NodupKeys) :
    ∀ start : Values,
    (entries.foldl (fun decoded entry => decoded.insert (toValidUtf8 entry.1) entry.2) start).lookup key =
      (entries.dlookup key).or (start.lookup key) := by
  induction entries with
  | nil => exact fun _ => rfl
  | cons entry rest ih =>
    intro start
    obtain ⟨name, value⟩ := entry
    obtain ⟨fresh, others⟩ := List.nodupKeys_cons.mp distinct
    rw [List.foldl_cons, ih (fun other member => valid other (List.mem_cons_of_mem _ member)) others,
      valid _ List.mem_cons_self]
    by_cases same : key = name
    · subst same
      rw [List.dlookup_eq_none.mpr fresh, List.dlookup_cons_eq]
      exact AList.lookup_insert start
    · rw [List.dlookup_cons_ne _ _ same]
      congr 1
      exact AList.lookup_insert_ne same

def Keyed (values : Values) : Prop := ∀ key value, values.lookup key = some value → validUtf8 key = true

variable {values : Values} {op : Op} {ops : List Op} {around : Surroundings} {s t : Shared} {session after : Session}
  {reading : Nat} {id : String} {policy : Policy} {key : Bytes} {effect : Bytes → Op → Option (Option Raw)}
  {earlier : List (List Op)} {v w : Visits}

theorem encode_keys_lookup (keyed : Keyed values) (key : Bytes) :
    (encodeKeys values).lookup key = values.lookup key := by
  have sorted := values.entries.perm_insertionSort (fun a b => before a.1 b.1 = true)
  have distinct := (List.perm_nodupKeys sorted).mpr values.nodupKeys
  rw [encodeKeys, lookup_inserted key ?_ distinct ∅, AList.lookup_empty, Option.or_none]
  · exact List.perm_dlookup key distinct sorted
  · intro entry member
    obtain ⟨name, value⟩ := entry
    refine to_valid_utf8_valid (keyed name value ?_)
    exact List.mem_dlookup values.nodupKeys (sorted.mem_iff.mp member)

theorem latest_snoc (effect : Op → Option (Option Raw)) (ops : List Op) (op : Op) :
    latest effect (ops ++ [op]) = (effect op).getD (latest effect ops) := by
  rw [latest, List.foldl_append]
  rfl

theorem saved_part_save (ops : List Op) : savedPart (ops ++ [.save]) = ops ++ [.save] := by
  rw [savedPart, List.reverse_append, List.reverse_singleton, List.singleton_append,
    List.dropWhile_cons_of_neg (by decide), List.reverse_cons, List.reverse_reverse]

theorem saved_part_other (ops : List Op) (other : op ≠ .save) : savedPart (ops ++ [op]) = savedPart ops := by
  rw [savedPart, List.reverse_append, List.reverse_singleton, List.singleton_append,
    List.dropWhile_cons_of_pos (by simpa using other), savedPart]

theorem saved_part_unsaved (unsaved : .save ∉ ops) : savedPart ops = [] := by
  rw [savedPart, List.reverse_eq_nil_iff, List.dropWhile_eq_nil_iff]
  intro op member
  have inside := List.mem_reverse.mp member
  rw [decide_eq_true_eq]
  rintro rfl
  exact unsaved inside

theorem last_flashed_unsaved (key : Bytes) (earlier : List (List Op)) (unsaved : .save ∉ ops) :
    lastFlashed key (earlier ++ [ops]) = lastFlashed key earlier := by
  rw [lastFlashed, List.filter_append, List.filter_singleton, decide_eq_false unsaved, lastFlashed]
  simp

theorem last_flashed_saved (key : Bytes) (earlier : List (List Op)) (saved : .save ∈ ops) :
    lastFlashed key (earlier ++ [ops]) = latest (Op.flashed key) (savedPart ops) := by
  rw [lastFlashed, List.filter_append, List.filter_singleton, decide_eq_true saved]
  simp

theorem unsaved_requests (key : Bytes) {requests : List (List Op)} (unsaved : ∀ ops ∈ requests, .save ∉ ops) :
    requests.flatMap savedPart = [] ∧ lastFlashed key requests = none := by
  constructor
  · rw [List.flatMap_eq_nil_iff]
    exact fun ops member => saved_part_unsaved (unsaved ops member)
  · rw [lastFlashed, List.filter_eq_nil_iff.mpr (fun ops member => by simpa using unsaved ops member)]
    rfl

structure Written (stored : Payload) (requests : List (List Op)) : Prop where
  values : ∀ key, stored.values.lookup key = latest (Op.permanent key) (requests.flatMap savedPart)
  flash : ∀ key, stored.flash.lookup key = lastFlashed key requests
  keyed : Keyed stored.values

structure Remembers (s : Shared) (requests : List (List Op)) : Prop where
  sent : ∀ ops ∈ requests, .save ∈ ops → cookieOf s ≠ ""
  row : cookieOf s ≠ "" → ∀ row, s.rows (cookieOf s) = some row →
    ∃ stored, row.value = .payload stored ∧ Written stored requests

structure Carries (session : Session) (earlier : List (List Op)) (ops : List Op) : Prop where
  values : ∀ key, session.values.lookup key = latest (Op.permanent key) (earlier.flatMap savedPart ++ ops)
  new : ∀ key, session.newFlash.lookup key = latest (Op.flashed key) ops
  old : ∀ key, session.oldFlash.lookup key = visibleFlash key earlier ops
  keyedValues : Keyed session.values
  keyedFlash : Keyed session.newFlash

def Visits.requests (v : Visits) : List (List Op) := v.earlier ++ (v.current.map Prod.fst).toList

theorem fresh_runs (run : Runs (world around) 0 fresh s (.ok (session, reading)) t) :
    session.values = ∅ ∧ session.oldFlash = ∅ ∧ session.newFlash = ∅ ∧ session.persistedID = "" ∧ t.rows = s.rows ∧
      t.cookies = s.cookies := by
  obtain ⟨reply, t₁, first, run⟩ := runs_query run
  cases reply with
  | none =>
    obtain ⟨same, _⟩ := runs_ret run
    cases same
  | some id =>
    obtain ⟨_, _, rfl⟩ := first
    obtain ⟨issuedAt, t₂, rfl, issuing⟩ := runs_query run
    obtain ⟨lineage, t₃, ⟨_, rfl⟩, returning⟩ := runs_query issuing
    obtain ⟨same, rfl⟩ := runs_ret returning
    cases same
    exact ⟨rfl, rfl, rfl, rfl, rfl, rfl⟩

theorem discard_runs {failed : StoreErr → Err}
    (run : Runs (world around) 0 (discard id failed) s (.ok (session, reading)) t) : session.persistedID = "" := by
  obtain ⟨reply, t₁, _, run⟩ := runs_query run
  match reply with
  | .error .notFound => exact (fresh_runs run).2.2.2.1
  | .error .alreadyExists =>
    obtain ⟨same, _⟩ := runs_ret run
    cases same
  | .error (.other _) =>
    obtain ⟨same, _⟩ := runs_ret run
    cases same
  | .ok _ => exact (fresh_runs run).2.2.2.1

theorem store_get_found {row : Row} (answered : StoreAnswer around s (.get id) (.ok row) t) :
    s.rows id = some row ∧ t.rows = s.rows ∧ t.cookies = s.cookies := by
  obtain ⟨step, _, cookies⟩ := succeeded_step answered rfl
  generalize written : t.rows = rows at step
  cases step with
  | found _ _ live =>
    rw [Rows.live, Option.filter_eq_some_iff] at live
    exact ⟨live.1, rfl, cookies⟩

theorem load_runs (run : Runs (world around) 0 (load policy id) s (.ok (session, reading)) t)
    (alive : session.persistedID = id) :
    session.newFlash = ∅ ∧ t.rows = s.rows ∧ t.cookies = s.cookies ∧
      ((id = "" ∧ session.values = ∅ ∧ session.oldFlash = ∅) ∨
        (id ≠ "" ∧ ∃ row stored, s.rows id = some row ∧ row.value = .payload stored ∧ session.values = stored.values ∧
          session.oldFlash = stored.flash)) := by
  rw [load] at run
  split at run
  · rename_i empty
    obtain ⟨values, old, new, _, rows, cookies⟩ := fresh_runs run
    exact ⟨new, rows, cookies, .inl ⟨empty, values, old⟩⟩
  · rename_i named
    have never : ∀ other, session.persistedID = "" → other := fun _ none => absurd (alive.symm.trans none) named
    obtain ⟨reply, t₁, answered, run⟩ := runs_query run
    match reply with
    | .error .notFound => exact never _ (fresh_runs run).2.2.2.1
    | .error .alreadyExists =>
      obtain ⟨same, _⟩ := runs_ret run
      cases same
    | .error (.other _) =>
      obtain ⟨same, _⟩ := runs_ret run
      cases same
    | .ok row =>
      obtain ⟨found, rows, cookies⟩ := store_get_found answered
      cases content : row.value with
      | malformed =>
        simp only [content] at run
        obtain ⟨same, _⟩ := runs_ret run
        cases same
      | payload stored =>
        simp only [content] at run
        obtain ⟨now', t₂, rfl, later⟩ := runs_query run
        split at later
        · exact never _ (discard_runs later)
        · generalize (if isZero stored.issuedAt = true then (now' : Int) else stored.issuedAt) = issuedAt at later
          split at later
          · exact never _ (discard_runs later)
          · obtain ⟨same, rfl⟩ := runs_ret later
            cases same
            exact ⟨rfl, rows, cookies, .inr ⟨named, row, stored, found, content, rfl, rfl⟩⟩

theorem persist_runs {row : Row} (run : Runs (world around) 0 (persist session row) s (.ok ()) t) :
    t.rows session.id = some row := by
  have created : ∀ s t, StoreAnswer around s (.create session.id row) (.ok ()) t → t.rows session.id = some row := by
    intro s t answered
    obtain ⟨step, _⟩ := succeeded_step answered rfl
    generalize written : t.rows = rows at step
    cases step with
    | created _ _ _ => exact if_pos rfl
  rw [persist] at run
  split at run
  · obtain ⟨reply, t₁, answered, last⟩ := runs_query run
    obtain ⟨rfl, rfl⟩ := runs_ret last
    exact created s _ answered
  · split at run
    · obtain ⟨reply, t₁, answered, last⟩ := runs_query run
      obtain ⟨rfl, rfl⟩ := runs_ret last
      obtain ⟨step, _⟩ := succeeded_step answered rfl
      generalize written : t.rows = rows at step
      cases step with
      | updated _ _ _ _ => exact if_pos rfl
    · rename_i moved
      obtain ⟨reply, t₁, answered, rest⟩ := runs_query run
      split at rest
      · rename_i recreates
        obtain ⟨reply', t₂, answered', last⟩ := runs_query rest
        obtain ⟨rfl, rfl⟩ := runs_ret last
        exact created t₁ _ answered'
      · obtain ⟨rfl, rfl⟩ := runs_ret rest
        obtain ⟨step, _⟩ := succeeded_step answered rfl
        generalize written : t.rows = rows at step
        cases step with
        | rotated _ _ _ _ _ _ => rw [Rows.set, if_neg (Ne.symm moved), Rows.set, if_pos rfl]

theorem issued_runs {issued' : Session} (run : Runs (world around) 0 (issued session reading) s issued' t) :
    issued'.id = session.id ∧ issued'.values = session.values ∧ issued'.newFlash = session.newFlash := by
  rw [issued] at run
  split at run
  · obtain ⟨lineage, t₁, ⟨_, rfl⟩, last⟩ := runs_query run
    obtain ⟨rfl, rfl⟩ := runs_ret last
    exact ⟨rfl, rfl, rfl⟩
  · obtain ⟨rfl, rfl⟩ := runs_ret run
    exact ⟨rfl, rfl, rfl⟩

theorem invalidate_cleared (run : Runs (world around) 0 (invalidate session) s (.ok (), after) t) : after.id = "" := by
  rw [invalidate] at run
  split at run
  · rename_i none
    obtain ⟨same, _⟩ := runs_ret run
    cases same
    exact none
  · split at run
    · obtain ⟨same, _⟩ := runs_ret run
      cases same
      rfl
    · obtain ⟨reply, t₁, _, last⟩ := runs_query run
      match reply with
      | .error .notFound =>
        obtain ⟨same, _⟩ := runs_ret last
        cases same
        rfl
      | .error .alreadyExists =>
        obtain ⟨same, _⟩ := runs_ret last
        cases same
      | .error (.other _) =>
        obtain ⟨same, _⟩ := runs_ret last
        cases same
      | .ok _ =>
        obtain ⟨same, _⟩ := runs_ret last
        cases same
        rfl

theorem expire_cleared (run : Runs (world around) 0 (expire session) s (.ok (), after) t) : after.id = "" := by
  obtain ⟨⟨result, cleared⟩, t₁, first, rest⟩ := runs_bind _ run
  cases result with
  | error err =>
    obtain ⟨same, _⟩ := runs_ret rest
    cases same
  | ok _ =>
    obtain ⟨_, t₂, _, last⟩ := runs_query rest
    obtain ⟨same, _⟩ := runs_ret last
    cases same
    exact invalidate_cleared first

theorem save_runs (run : Runs (world around) 0 (save policy false session) s (.ok (), after) t)
    (alive : after.id ≠ "") : cookieOf t = session.id ∧ session.id ≠ "" ∧
      (∃ row issuedAt, t.rows session.id = some row ∧
        row.value = .payload (Payload.encoded ⟨issuedAt, session.values, session.newFlash⟩)) ∧
      after.values = session.values ∧ after.newFlash = session.newFlash ∧ after.oldFlash = ∅ := by
  rw [save] at run
  split at run
  · obtain ⟨same, _⟩ := runs_ret run
    cases same
  · rename_i named
    obtain ⟨reading, t₁, rfl, run₁⟩ := runs_query run
    obtain ⟨dated, t₂, first, run₂⟩ := runs_bind _ run₁
    obtain ⟨id, values, flash⟩ := issued_runs first
    split at run₂
    · obtain ⟨⟨result, cleared⟩, t₃, ending, last⟩ := runs_bind _ run₂
      cases result with
      | error err =>
        obtain ⟨same, _⟩ := runs_ret last
        cases same
      | ok _ =>
        obtain ⟨same, _⟩ := runs_ret last
        cases same
        exact absurd (expire_cleared ending) alive
    · obtain ⟨encoded, t₃, ⟨encodes, rfl⟩, run₃⟩ := runs_query run₂
      cases encoded with
      | none =>
        obtain ⟨same, _⟩ := runs_ret run₃
        cases same
      | some encoded =>
        obtain ⟨result, t₄, stores, run₄⟩ := runs_bind _ run₃
        cases result with
        | error err =>
          obtain ⟨same, _⟩ := runs_ret run₄
          cases same
        | ok _ =>
          have there := persist_runs stores
          obtain ⟨_, t₅, rfl, last⟩ := runs_query run₄
          obtain ⟨same, rfl⟩ := runs_ret last
          cases same
          rcases encodes with none | same
          · cases none
          · cases same
            rw [id] at there
            rw [values, flash] at there
            exact ⟨id, named, ⟨_, dated.issuedAt, there, rfl⟩, values, flash, rfl⟩

theorem regenerate_runs {rotation : Rotation} {result : Except Err Unit}
    (run : Runs (world around) 0 (regenerate rotation session) s (result, after) t) :
    after.values = session.values ∧ after.oldFlash = session.oldFlash ∧ after.newFlash = session.newFlash ∧
      t.rows = s.rows ∧ t.cookies = s.cookies := by
  obtain ⟨reply, t₁, drawn, last⟩ := runs_query run
  cases reply with
  | none =>
    obtain ⟨same, rfl⟩ := runs_ret last
    cases same
    cases drawn
    exact ⟨rfl, rfl, rfl, rfl, rfl⟩
  | some id =>
    obtain ⟨same, rfl⟩ := runs_ret last
    cases same
    obtain ⟨_, _, rfl⟩ := drawn
    exact ⟨rfl, rfl, rfl, rfl, rfl⟩

theorem keyed_insert (value : Raw) (keyed : Keyed values) (valid : validUtf8 key = true) :
    Keyed (values.insert key value) := by
  intro other found held
  by_cases same : other = key
  · exact same ▸ valid
  · exact keyed other found ((AList.lookup_insert_ne same).symm.trans held)

theorem keyed_erase (key : Bytes) (keyed : Keyed values) : Keyed (values.erase key) := by
  intro other found held
  by_cases same : other = key
  · subst same
    rw [AList.lookup_erase] at held
    cases held
  · exact keyed other found ((AList.lookup_erase_ne same).symm.trans held)

theorem latest_insert {value : Raw} (same : effect key op = some (some value))
    (others : ∀ other, other ≠ key → effect other op = none)
    (holds : ∀ other, values.lookup other = latest (effect other) ops) (other : Bytes) :
    (values.insert key value).lookup other = latest (effect other) (ops ++ [op]) := by
  rw [latest_snoc]
  by_cases equal : other = key
  · subst equal
    rw [same]
    exact AList.lookup_insert values
  · rw [others other equal]
    exact (AList.lookup_insert_ne equal).trans (holds other)

theorem latest_erase (same : effect key op = some none) (others : ∀ other, other ≠ key → effect other op = none)
    (holds : ∀ other, values.lookup other = latest (effect other) ops) (other : Bytes) :
    (values.erase key).lookup other = latest (effect other) (ops ++ [op]) := by
  rw [latest_snoc]
  by_cases equal : other = key
  · subst equal
    rw [same]
    exact AList.lookup_erase other values
  · rw [others other equal]
    exact (AList.lookup_erase_ne equal).trans (holds other)

theorem latest_keeps (op : Op) (nothing : ∀ other, effect other op = none)
    (holds : ∀ other, values.lookup other = latest (effect other) ops) (other : Bytes) :
    values.lookup other = latest (effect other) (ops ++ [op]) := by
  rw [latest_snoc, nothing other]
  exact holds other

theorem visible_flash_keeps (earlier : List (List Op)) (ops : List Op) (op : Op) (save : op ≠ .save)
    (forget : op ≠ .forget key) : visibleFlash key earlier (ops ++ [op]) = visibleFlash key earlier ops := by
  simp only [visibleFlash, List.mem_append, List.mem_singleton, Ne.symm save, Ne.symm forget, or_false]

theorem visible_flash_gone (earlier : List (List Op)) (ops : List Op) (gone : op = .save ∨ op = .forget key) :
    visibleFlash key earlier (ops ++ [op]) = none := by
  rw [visibleFlash, if_pos]
  rcases gone with rfl | rfl
  · exact .inl (by simp)
  · exact .inr (by simp)

theorem carries_put (encoded : Option Raw) (valid : validUtf8 key = true) (carries : Carries session earlier ops) :
    Carries (put key encoded session).2 earlier (ops ++ [.put key encoded]) := by
  have old := fun other => (carries.old other).trans
    (visible_flash_keeps earlier ops (.put key encoded) (by rintro ⟨⟩) (by rintro ⟨⟩)).symm
  have new := latest_keeps (.put key encoded) (fun _ => rfl) carries.new
  cases encoded with
  | none =>
    refine ⟨?_, new, old, carries.keyedValues, carries.keyedFlash⟩
    rw [← List.append_assoc]
    exact latest_keeps (.put key none) (fun _ => rfl) carries.values
  | some value =>
    refine ⟨?_, new, old, keyed_insert value carries.keyedValues valid, carries.keyedFlash⟩
    rw [← List.append_assoc]
    exact latest_insert (if_pos rfl) (fun _ other => if_neg (Ne.symm other)) carries.values

theorem carries_flash (encoded : Option Raw) (valid : validUtf8 key = true) (carries : Carries session earlier ops) :
    Carries (flash key encoded session).2 earlier (ops ++ [.flash key encoded]) := by
  have old := fun other => (carries.old other).trans
    (visible_flash_keeps earlier ops (.flash key encoded) (by rintro ⟨⟩) (by rintro ⟨⟩)).symm
  have values : ∀ other, session.values.lookup other =
      latest (Op.permanent other) (earlier.flatMap savedPart ++ (ops ++ [.flash key encoded])) := by
    rw [← List.append_assoc]
    exact latest_keeps (.flash key encoded) (fun _ => rfl) carries.values
  cases encoded with
  | none =>
    exact ⟨values, latest_keeps (.flash key none) (fun _ => rfl) carries.new, old,
      carries.keyedValues, carries.keyedFlash⟩
  | some value =>
    refine ⟨values, ?_, old, carries.keyedValues, keyed_insert value carries.keyedFlash valid⟩
    exact latest_insert (if_pos rfl) (fun _ other => if_neg (Ne.symm other)) carries.new

theorem carries_forget (key : Bytes) (carries : Carries session earlier ops) :
    Carries (forget key session) earlier (ops ++ [.forget key]) := by
  refine ⟨?_, ?_, ?_, keyed_erase key carries.keyedValues, keyed_erase key carries.keyedFlash⟩
  · rw [← List.append_assoc]
    exact latest_erase (if_pos rfl) (fun _ other => if_neg (Ne.symm other)) carries.values
  · exact latest_erase (if_pos rfl) (fun _ other => if_neg (Ne.symm other)) carries.new
  · intro other
    by_cases same : other = key
    · subst same
      rw [visible_flash_gone earlier ops (.inr rfl)]
      exact AList.lookup_erase other session.oldFlash
    · rw [visible_flash_keeps earlier ops _ (by rintro ⟨⟩) (by rintro ⟨⟩; exact same rfl)]
      exact (AList.lookup_erase_ne same).trans (carries.old other)

theorem carries_unchanged (values : after.values = session.values) (old : after.oldFlash = session.oldFlash)
    (new : after.newFlash = session.newFlash) (permanent : ∀ key, op.permanent key = none)
    (flashed : ∀ key, op.flashed key = none) (save : op ≠ .save) (forget : ∀ key, op ≠ .forget key)
    (carries : Carries session earlier ops) : Carries after earlier (ops ++ [op]) := by
  refine ⟨?_, ?_, ?_, values ▸ carries.keyedValues, new ▸ carries.keyedFlash⟩
  · rw [values, ← List.append_assoc]
    exact latest_keeps op permanent carries.values
  · rw [new]
    exact latest_keeps op flashed carries.new
  · intro key
    rw [old, visible_flash_keeps earlier ops op save (forget key)]
    exact carries.old key

theorem carries_save (values : after.values = session.values) (new : after.newFlash = session.newFlash)
    (old : after.oldFlash = ∅) (carries : Carries session earlier ops) : Carries after earlier (ops ++ [.save]) := by
  refine ⟨?_, ?_, ?_, values ▸ carries.keyedValues, new ▸ carries.keyedFlash⟩
  · rw [values, ← List.append_assoc]
    exact latest_keeps .save (fun _ => rfl) carries.values
  · rw [new]
    exact latest_keeps .save (fun _ => rfl) carries.new
  · intro key
    rw [old, visible_flash_gone earlier ops (.inl rfl)]
    rfl

theorem saved_payload (issuedAt : Int) (carries : Carries session earlier ops) :
    Written (Payload.encoded ⟨issuedAt, session.values, session.newFlash⟩) (earlier ++ [ops ++ [.save]]) := by
  have requests : (earlier ++ [ops ++ [Op.save]]).flatMap savedPart = earlier.flatMap savedPart ++ ops ++ [.save] := by
    rw [List.flatMap_append, List.flatMap_singleton, saved_part_save, List.append_assoc]
  refine ⟨?_, ?_, ?_⟩
  · intro key
    rw [requests]
    refine (encode_keys_lookup carries.keyedValues key).trans ?_
    exact latest_keeps .save (fun _ => rfl) carries.values key
  · intro key
    rw [last_flashed_saved key earlier (by simp), saved_part_save]
    refine (encode_keys_lookup carries.keyedFlash key).trans ?_
    exact latest_keeps .save (fun _ => rfl) carries.new key
  · intro key value held
    exact carries.keyedValues key value ((encode_keys_lookup carries.keyedValues key).symm.trans held)

theorem remembers_same {requests : List (List Op)} (others : List (List Op)) (rows : t.rows = s.rows)
    (cookies : t.cookies = s.cookies) (sent : ∀ ops ∈ others, .save ∈ ops → ∃ ops' ∈ requests, Op.save ∈ ops')
    (values : others.flatMap savedPart = requests.flatMap savedPart)
    (flash : ∀ key, lastFlashed key others = lastFlashed key requests) (remembers : Remembers s requests) :
    Remembers t others := by
  have cookie : cookieOf t = cookieOf s := by rw [cookieOf, cookies, cookieOf]
  refine ⟨?_, ?_⟩
  · intro ops member saves
    obtain ⟨ops', member', saves'⟩ := sent ops member saves
    exact cookie ▸ remembers.sent ops' member' saves'
  · rw [cookie, rows]
    intro named row held
    obtain ⟨stored, content, saved⟩ := remembers.row named row held
    exact ⟨stored, content, fun key => values ▸ saved.values key,
      fun key => (flash key).symm ▸ saved.flash key, saved.keyed⟩

theorem remembers_unsaved (rows : t.rows = s.rows) (cookies : t.cookies = s.cookies) (other : op ≠ .save)
    (remembers : Remembers s (earlier ++ [ops])) : Remembers t (earlier ++ [ops ++ [op]]) := by
  have same : Op.save ∈ ops ++ [op] ↔ Op.save ∈ ops := by simp [Ne.symm other]
  refine remembers_same _ rows cookies ?_ ?_ ?_ remembers
  · intro requested member saves
    rcases List.mem_append.mp member with before | last
    · exact ⟨requested, List.mem_append_left _ before, saves⟩
    · cases List.mem_singleton.mp last
      exact ⟨ops, by simp, same.mp saves⟩
  · simp only [List.flatMap_append, List.flatMap_singleton, saved_part_other ops other]
  · intro key
    by_cases saved : .save ∈ ops
    · rw [last_flashed_saved key earlier saved, last_flashed_saved key earlier (same.mpr saved),
        saved_part_other ops other]
    · rw [last_flashed_unsaved key earlier saved, last_flashed_unsaved key earlier (same.not.mpr saved)]

structure Remembering (v : Visits) : Prop where
  stored : Remembers v.shared v.requests
  current : ∀ ops session, v.current = some (ops, session) → Carries session v.earlier ops

theorem requests_current (current : v.current = some (ops, session)) : v.requests = v.earlier ++ [ops] := by
  rw [Visits.requests, current]
  rfl

theorem requests_between (current : v.current = none) : v.requests = v.earlier := by
  rw [Visits.requests, current]
  exact List.append_nil _

theorem loads_carries (remembers : Remembers s earlier) (new : session.newFlash = ∅)
    (found : (cookieOf s = "" ∧ session.values = ∅ ∧ session.oldFlash = ∅) ∨
      (cookieOf s ≠ "" ∧ ∃ row stored, s.rows (cookieOf s) = some row ∧ row.value = .payload stored ∧
        session.values = stored.values ∧ session.oldFlash = stored.flash)) : Carries session earlier [] := by
  have keyedNew : Keyed session.newFlash := by
    rw [new]
    rintro _ _ ⟨⟩
  rcases found with ⟨empty, values, old⟩ | ⟨named, row, stored, held, content, values, old⟩
  · -- Without a cookie no request has saved.
    have unsaved := fun key => unsaved_requests key (fun ops member saves => remembers.sent ops member saves empty)
    refine ⟨?_, ?_, ?_, ?_, keyedNew⟩
    · intro key
      rw [values, (unsaved key).1]
      rfl
    · intro key
      rw [new]
      rfl
    · intro key
      rw [old, visibleFlash, if_neg (by simp), (unsaved key).2]
      rfl
    · rw [values]
      rintro _ _ ⟨⟩
  · obtain ⟨stored', content', saved⟩ := remembers.row named row held
    cases content.symm.trans content'
    refine ⟨?_, ?_, ?_, values ▸ saved.keyed, keyedNew⟩
    · intro key
      rw [values, List.append_nil]
      exact saved.values key
    · intro key
      rw [new]
      rfl
    · intro key
      rw [old, visibleFlash, if_neg (by simp)]
      exact saved.flash key

theorem remembering_loads (holds : Remembering v) (step : visitStep around policy v .loads w) : Remembering w := by
  obtain ⟨between, session, reading, t, run, alive, rfl⟩ := step
  obtain ⟨new, rows, cookies, found⟩ := load_runs run alive
  have remembers := requests_between between ▸ holds.stored
  refine ⟨?_, ?_⟩
  · refine remembers_same (v.earlier ++ [[]]) rows cookies ?_ ?_ ?_ remembers
    · intro ops member saves
      rcases List.mem_append.mp member with before | last
      · exact ⟨ops, before, saves⟩
      · cases List.mem_singleton.mp last
        cases saves
    · simp [savedPart]
    · exact fun key => last_flashed_unsaved key v.earlier (by simp)
  · rintro ops session' ⟨⟩
    exact loads_carries remembers new found

theorem remembering_does (current : v.current = some (ops, session)) (holds : Remembering v)
    (step : opStep around policy session v.shared op after t) (valid : (VisitLabel.does op).valid = true) :
    Remembers t (v.earlier ++ [ops ++ [op]]) ∧ Carries after v.earlier (ops ++ [op]) := by
  have carries := holds.current ops session current
  have remembers := requests_current current ▸ holds.stored
  cases op with
  | put key encoded =>
    obtain ⟨rfl, rfl⟩ := step
    exact ⟨remembers_unsaved rfl rfl (by rintro ⟨⟩) remembers,
      carries_put encoded valid carries⟩
  | flash key encoded =>
    obtain ⟨rfl, rfl⟩ := step
    exact ⟨remembers_unsaved rfl rfl (by rintro ⟨⟩) remembers,
      carries_flash encoded valid carries⟩
  | forget key =>
    obtain ⟨rfl, rfl⟩ := step
    exact ⟨remembers_unsaved rfl rfl (by rintro ⟨⟩) remembers, carries_forget key carries⟩
  | get key =>
    obtain ⟨rfl, rfl⟩ := step
    exact ⟨remembers_unsaved rfl rfl (by rintro ⟨⟩) remembers,
      carries_unchanged rfl rfl rfl (fun _ => rfl) (fun _ => rfl) (by rintro ⟨⟩) (by rintro _ ⟨⟩) carries⟩
  | regenerate rotation =>
    obtain ⟨result, run⟩ := step
    obtain ⟨values, old, new, rows, cookies⟩ := regenerate_runs run
    exact ⟨remembers_unsaved rows cookies (by rintro ⟨⟩) remembers,
      carries_unchanged values old new (fun _ => rfl) (fun _ => rfl) (by rintro ⟨⟩) (by rintro _ ⟨⟩) carries⟩
  | save =>
    obtain ⟨run, alive⟩ := step
    obtain ⟨sent, named, ⟨row, issuedAt, held, content⟩, values, new, old⟩ :=
      save_runs run alive
    refine ⟨⟨fun _ _ _ => sent ▸ named, ?_⟩, carries_save values new old carries⟩
    rw [sent]
    intro _ row' held'
    cases held.symm.trans held'
    exact ⟨_, content, saved_payload issuedAt carries⟩

theorem remembering_drifts {requests : List (List Op)} (drift : (world around).drifts s t)
    (remembers : Remembers s requests) : Remembers t requests := by
  obtain ⟨rows, clock, _, purged, rfl⟩ := drift
  refine ⟨remembers.sent, ?_⟩
  intro named row held
  rcases purged (cookieOf s) with same | ⟨gone, _⟩
  · exact remembers.row named row (same.symm.trans held)
  · cases gone.symm.trans held

theorem remembering_step {label : VisitLabel} (holds : Remembering v) (step : visitStep around policy v label w)
    (valid : label.valid = true) : Remembering w := by
  cases label with
  | loads => exact remembering_loads holds step
  | does op =>
    obtain ⟨ops, session, after, t, current, step, rfl⟩ := step
    obtain ⟨stored, carries⟩ := remembering_does current holds step valid
    refine ⟨stored, ?_⟩
    rintro _ _ ⟨⟩
    exact carries
  | ends =>
    obtain ⟨ops, session, current, rfl⟩ := step
    refine ⟨?_, by rintro _ _ ⟨⟩⟩
    rw [requests_between rfl]
    exact requests_current current ▸ holds.stored
  | drifts =>
    obtain ⟨t, drift, rfl⟩ := step
    exact ⟨remembering_drifts drift holds.stored, holds.current⟩

theorem reached_remembering (reached : Reach ((visits around policy).guard (fun _ label => label.valid = true)) v) :
    Remembering v := by
  refine reach_invariant Remembering ?_ ?_ reached
  · rintro v ⟨initial, earlier, current⟩
    refine ⟨⟨?_, ?_⟩, ?_⟩
    · rw [requests_between current, earlier]
      rintro _ ⟨⟩
    · intro named
      rw [cookieOf, initial.unsent] at named
      exact absurd rfl named
    · rw [current]
      rintro _ _ ⟨⟩
  · rintro v label w holds ⟨valid, step⟩
    exact remembering_step holds step valid

def opNext (policy : Policy) (session : Session) (s : Shared) : Op → Option (Session × Shared)
  | .put key encoded => some ((put key encoded session).2, s)
  | .flash key encoded => some ((flash key encoded session).2, s)
  | .forget key => some (forget key session, s)
  | .get _ => some (session, s)
  | .regenerate rotation =>
    let result := execute sampleAnswer 0 (regenerate rotation session) s
    some (result.1.2, result.2)
  | .save =>
    let result := execute sampleAnswer 0 (save policy false session) s
    if result.1.1 = .ok () ∧ result.1.2.id ≠ "" then some (result.1.2, result.2) else none

def visitNext (policy : Policy) (v : Visits) : VisitLabel → Option Visits
  | .loads =>
    match v.current, execute sampleAnswer 0 (load policy (cookieOf v.shared)) v.shared with
    | none, (.ok (session, _), t) =>
      if session.persistedID = cookieOf v.shared then
        some { v with shared := t, current := some ([], session) } else none
    | _, _ => none
  | .does op =>
    match v.current with
    | none => none
    | some (ops, session) =>
      (opNext policy session v.shared op).map (fun result =>
        { v with shared := result.2, current := some (ops ++ [op], result.1) })
  | .ends =>
    match v.current with
    | none => none
    | some (ops, _) => some { v with earlier := v.earlier ++ [ops], current := none }
  | .drifts => some v

theorem op_next_sound (around : Surroundings) (next : opNext policy session s op = some (after, t)) :
    opStep around policy session s op after t := by
  have runs := fun {α : Type} (prog : M α) => execute_runs (w := world around)
    (fun s question => sample_answer_allowed around s 0 question) prog s
  cases op with
  | regenerate rotation =>
    cases next
    exact ⟨_, runs (regenerate rotation session)⟩
  | save =>
    simp only [opNext] at next
    split at next
    · rename_i saved
      obtain ⟨succeeded, alive⟩ := saved
      cases next
      refine ⟨?_, alive⟩
      rw [← succeeded]
      exact runs (save policy false session)
    · cases next
  | _ =>
    cases next
    exact ⟨rfl, rfl⟩

theorem visit_next_sound (around : Surroundings) (v : Visits) {label : VisitLabel}
    (next : visitNext policy v label = some w) : visitStep around policy v label w := by
  cases label with
  | loads =>
    simp only [visitNext] at next
    split at next
    · rename_i session reading t between loaded
      split at next
      · rename_i alive
        cases next
        refine ⟨between, session, reading, t, ?_, alive, rfl⟩
        have run := execute_runs (w := world around)
          (fun s question => sample_answer_allowed around s 0 question) (load policy (cookieOf v.shared)) v.shared
        rw [loaded] at run
        exact run
      · cases next
    · cases next
  | does op =>
    simp only [visitNext] at next
    split at next
    · cases next
    rename_i ops session current
    obtain ⟨⟨after, t⟩, stepped, rfl⟩ := Option.map_eq_some_iff.mp next
    exact ⟨ops, session, after, t, current, op_next_sound around stepped, rfl⟩
  | ends =>
    simp only [visitNext] at next
    split at next
    · cases next
    rename_i ops session current
    cases next
    exact ⟨ops, session, current, rfl⟩
  | drifts =>
    cases next
    exact ⟨w.shared, ⟨w.shared.rows, w.shared.clock, Nat.le_refl _, purged_refl _, rfl⟩, rfl⟩

def firstVisit : Visits := ⟨emptyShared, [], none⟩

theorem visits_replayed {around : Surroundings} {labels : List VisitLabel}
    (replayed : labels.foldlM (visitNext policy) firstVisit = some v) :
    Run (visits around policy) firstVisit labels v :=
  replay_run (fun v _ _ => visit_next_sound around v) firstVisit replayed

theorem get_returns_visible (around : Surroundings) (policy : Policy) (v : Visits)
    (reached : Reach ((visits around policy).guard (fun _ label => label.valid = true)) v) (ops : List Op)
    (session : Session) (current : v.current = some (ops, session)) (key : Bytes) :
    session.get key = visible key v.earlier ops := by
  have carries := (reached_remembering reached).current ops session current
  rw [Session.get, carries.values key, carries.old key, visible]

def orderedVisits : List VisitLabel :=
  [.loads, .does (.put (ascii "user") (some "7")), .does (.flash (ascii "notice") (some "saved")), .does .save,
    .ends, .loads]

def foundAfter (labels : List VisitLabel) (key : Bytes) : Option (Option Raw) :=
  (labels.foldlM (visitNext shortPolicy) firstVisit).bind (fun v => v.current.map (fun current => current.2.get key))

theorem get_returns_visible_sample : ∃ v ops session,
    Reach ((visits ⟨false, false⟩ shortPolicy).guard (fun _ label => label.valid = true)) v ∧
    v.current = some (ops, session) ∧ session.get (ascii "notice") = some "saved" ∧
    session.get (ascii "user") = visible (ascii "user") v.earlier ops := by
  have found : foundAfter orderedVisits (ascii "notice") = some (some "saved") := by decide +kernel
  obtain ⟨v, replayed, found⟩ := Option.bind_eq_some_iff.mp found
  obtain ⟨⟨ops, session⟩, current, found⟩ := Option.map_eq_some_iff.mp found
  have start : Reach ((visits ⟨false, false⟩ shortPolicy).guard (fun _ label => label.valid = true)) firstVisit :=
    .start _ ⟨empty_initial, rfl, rfl⟩
  have reached := reach_run start (run_guard (by decide) (visits_replayed replayed))
  exact ⟨v, ops, session, reached, current, found, get_returns_visible _ _ v reached ops session current (ascii "user")⟩

def brokenKey : Bytes := [0xff]

def brokenVisits : List VisitLabel := [.loads, .does (.put brokenKey (some "7")), .does .save, .ends, .loads]

theorem invalid_key_lost : ∃ v ops session, Reach (visits ⟨false, false⟩ shortPolicy) v ∧
    v.current = some (ops, session) ∧ session.get brokenKey = none ∧ visible brokenKey v.earlier ops = some "7" := by
  have found : ((brokenVisits.foldlM (visitNext shortPolicy) firstVisit).bind (fun v => v.current.map (fun current =>
      (current.2.get brokenKey, visible brokenKey v.earlier current.1)))) = some (none, some "7") := by decide +kernel
  obtain ⟨v, replayed, found⟩ := Option.bind_eq_some_iff.mp found
  obtain ⟨⟨ops, session⟩, current, found⟩ := Option.map_eq_some_iff.mp found
  have start : Reach (visits ⟨false, false⟩ shortPolicy) firstVisit := .start _ ⟨empty_initial, rfl, rfl⟩
  have reached := reach_run start (visits_replayed replayed)
  exact ⟨v, ops, session, reached, current, congrArg Prod.fst found, congrArg Prod.snd found⟩

end Goforge.Sessions
