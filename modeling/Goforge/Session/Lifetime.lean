import Goforge.Session.World

set_option autoImplicit false

namespace Goforge.Sessions

open GoMap GoString GoTime Interleave Machine

def IssuedAt (births : List Nat) (lineage : Option Nat) (t : Nat) : Prop :=
  ∃ number, lineage = some number ∧ births[number]? = some t

theorem issued_later {births later : List Nat} {lineage : Option Nat} {t : Nat} (grown : births <+: later)
    (issued : IssuedAt births lineage t) : IssuedAt later lineage t := by
  obtain ⟨number, named, found⟩ := issued
  obtain ⟨rest, rfl⟩ := grown
  have inside := (List.getElem?_eq_some_iff.mp found).1
  exact ⟨number, named, (List.getElem?_append_left inside).trans found⟩

section

variable (policy : Policy)

def RowSound (births : List Nat) (row : Row) : Prop :=
  (row.lineage = none ∧ row.value.legacy) ∨
    ∃ t stored, IssuedAt births row.lineage t ∧ row.value = .payload stored ∧ stored.issuedAt = t ∧
      row.expiresAt ≤ t + policy.absoluteLifetime

def CookieSound (births : List Nat) (cookie : Cookie) : Prop :=
  cookie.lineage = none ∨ ∃ t, IssuedAt births cookie.lineage t ∧ cookie.expires ≤ t + policy.absoluteLifetime ∧
    cookie.madeAt + cookie.maxAge * second ≤ t + policy.absoluteLifetime

def SessionSound (births : List Nat) (session : Session) : Prop :=
  (session.lineage = none ∧ session.issuedAt = zeroTime) ∨
    ∃ t, IssuedAt births session.lineage t ∧ session.issuedAt = t

def LoadSound (births : List Nat) (session : Session) (reading : Nat) : Prop :=
  (session.values ≠ ∅ ∨ session.oldFlash ≠ ∅) →
    ∃ t, IssuedAt births session.lineage t ∧ (reading : Int) < t + policy.absoluteLifetime

def QuestionSound (births : List Nat) : Question → Prop
  | .store call => ∀ row ∈ call.row, RowSound policy births row
  | .setCookie cookie => CookieSound policy births cookie
  | _ => True

def Learned (births : List Nat) : (question : Question) → Reply question → Prop
  | .store (.get _), reply => ∀ row, reply = .ok row → RowSound policy births row
  | .marshal stored, reply => ∀ encoded, reply = some encoded → encoded = .payload stored.encoded
  | .issue issuedAt, number => births[number]? = some issuedAt
  | _, _ => True

structure Sane (s : Shared) : Prop where
  rows : ∀ id row, s.rows id = some row → RowSound policy s.births row
  writes : ∀ row ∈ s.writes, RowSound policy s.births row
  cookies : ∀ cookie ∈ s.cookies, CookieSound policy s.births cookie

def lifetimeRules : Rules Shared Nat where
  inv := Sane policy
  rely _ s t := s.births <+: t.births
  refl _ s := List.prefix_refl s.births
  trans _ _ _ _ first second := first.trans second

variable {policy}

variable {births later : List Nat} {row : Row} {session : Session} {now : Int} {s t : Shared} {party : Nat}

theorem row_later (grown : births <+: later) (sound : RowSound policy births row) : RowSound policy later row := by
  rcases sound with legacy | ⟨t, stored, issued, rest⟩
  · exact .inl legacy
  · exact .inr ⟨t, stored, issued_later grown issued, rest⟩

theorem cookie_later {cookie : Cookie} (grown : births <+: later) (sound : CookieSound policy births cookie) :
    CookieSound policy later cookie := by
  rcases sound with none | ⟨t, issued, rest⟩
  · exact .inl none
  · exact .inr ⟨t, issued_later grown issued, rest⟩

theorem session_later (grown : births <+: later) (sound : SessionSound births session) :
    SessionSound later session := by
  rcases sound with none | ⟨t, issued, rest⟩
  · exact .inl none
  · exact .inr ⟨t, issued_later grown issued, rest⟩

theorem load_later {reading : Nat} (grown : births <+: later) (sound : LoadSound policy births session reading) :
    LoadSound policy later session reading := by
  intro values
  obtain ⟨t, issued, within⟩ := sound values
  exact ⟨t, issued_later grown issued, within⟩

theorem store_step_rows {rows next : Rows} {call : StoreCall} {reply : call.Reply}
    (step : StoreStep now rows call reply next) {id : String} (found : next id = some row) :
    rows id = some row ∨ row ∈ call.row := by
  have put : ∀ (before : Rows) other written, (before.set other (some written)) id = some row →
      before id = some row ∨ row = written := by
    intro before other written here
    unfold Rows.set at here
    split at here
    · exact .inr (Option.some.inj here).symm
    · exact .inl here
  have dropped : ∀ (before : Rows) other, (before.set other none) id = some row → before id = some row := by
    intro before other here
    unfold Rows.set at here
    split at here
    · cases here
    · exact here
  cases step with
  | created other written _ =>
    exact (put rows other written found).imp_right (fun same => by simp [StoreCall.row, same])
  | updated other _ written _ =>
    exact (put rows other written found).imp_right (fun same => by simp [StoreCall.row, same])
  | rotated oldID newID _ written _ _ =>
    exact (put rows newID written (dropped _ oldID found)).imp_right (fun same => by simp [StoreCall.row, same])
  | deleted other => exact .inl (dropped rows other found)
  | _ => exact .inl found

theorem sane_extend (sane : Sane policy s) (grown : s.births <+: t.births)
    (rows : ∀ id row, t.rows id = some row → s.rows id = some row ∨ RowSound policy s.births row)
    (writes : ∀ row ∈ t.writes, row ∈ s.writes ∨ RowSound policy s.births row)
    (cookies : ∀ cookie ∈ t.cookies, cookie ∈ s.cookies ∨ CookieSound policy s.births cookie) : Sane policy t where
  rows id row found := row_later grown ((rows id row found).elim (sane.rows id row) (fun new => new))
  writes row member := row_later grown ((writes row member).elim (sane.writes row) (fun new => new))
  cookies cookie member :=
    cookie_later grown ((cookies cookie member).elim (sane.cookies cookie) (fun new => new))

theorem store_answer_sane {around : Surroundings} {call : StoreCall} {reply : call.Reply}
    (answer : StoreAnswer around s call reply t) (sane : Sane policy s)
    (sound : ∀ row ∈ call.row, RowSound policy s.births row) :
    Sane policy t ∧ t.births = s.births ∧ Learned policy t.births (.store call) reply := by
  have written : ∀ row ∈ call.row ++ s.writes, row ∈ s.writes ∨ RowSound policy s.births row := by
    intro row member
    rcases List.mem_append.mp member with new | old
    · exact .inr (sound row new)
    · exact .inl old
  have learnedFail : ∀ err, Learned policy s.births (.store call) (call.fail err) := by
    intro err
    cases call <;> simp [Learned, StoreCall.fail]
  cases answer with
  | answered reply rows step =>
    refine ⟨sane_extend sane (List.prefix_refl _) ?_ written (fun cookie member => .inl member), rfl, ?_⟩
    · intro id row found
      exact (store_step_rows step found).imp_right (sound row)
    · cases step with
      | found id row live =>
        rintro _ ⟨⟩
        exact sane.rows id row (Option.filter_eq_some_iff.mp live).1
      | missing => rintro _ ⟨⟩
      | _ => trivial
  | failed text =>
    exact ⟨sane_extend sane (List.prefix_refl _) (fun id row found => .inl found) written
      (fun cookie member => .inl member), rfl, learnedFail _⟩
  | lost text reply rows _ step =>
    refine ⟨sane_extend sane (List.prefix_refl _) ?_ written (fun cookie member => .inl member), rfl, learnedFail _⟩
    intro id row found
    exact (store_step_rows step found).imp_right (sound row)

theorem answer_sane {around : Surroundings} {question : Question} {reply : Reply question}
    (answer : answers around s party question reply t) (sane : Sane policy s)
    (sound : QuestionSound policy s.births question) :
    Sane policy t ∧ s.births <+: t.births ∧ Learned policy t.births question reply := by
  have same : s.births <+: s.births := List.prefix_refl _
  cases question with
  | store call =>
    obtain ⟨kept, births, learned⟩ := store_answer_sane answer sane sound
    exact ⟨kept, births ▸ same, learned⟩
  | newID =>
    cases reply with
    | none =>
      obtain rfl := answer
      exact ⟨sane, same, trivial⟩
    | some id =>
      obtain ⟨_, _, rfl⟩ := answer
      exact ⟨⟨sane.rows, sane.writes, sane.cookies⟩, same, trivial⟩
  | marshal stored =>
    obtain ⟨encodes, rfl⟩ := answer
    refine ⟨sane, same, ?_⟩
    rintro encoded rfl
    rcases encodes with failed | done
    · cases failed
    · exact Option.some.inj done
  | setCookie cookie =>
    obtain rfl := answer
    refine ⟨sane_extend sane same (fun id row found => .inl found) (fun row member => .inl member) ?_, same,
      trivial⟩
    intro other member
    rcases List.mem_cons.mp member with rfl | old
    · exact .inr sound
    · exact .inl old
  | issue issuedAt =>
    obtain ⟨rfl, rfl⟩ := answer
    refine ⟨sane_extend sane (List.prefix_append _ _) (fun id row found => .inl found)
      (fun row member => .inl member) (fun cookie member => .inl member), List.prefix_append _ _, ?_⟩
    exact List.getElem?_concat_length
  | _ =>
    obtain rfl := answer
    exact ⟨sane, same, trivial⟩

variable {around : Surroundings} {α : Type}

abbrev Lasts (policy : Policy) (around : Surroundings) (party : Nat) (post : Shared → α → Prop) (prog : M α)
    (s : Shared) : Prop :=
  Valid (world around) (lifetimeRules policy) party post prog s

theorem lifetime_query {post : Shared → α → Prop} {question : Question} {next : Reply question → M α}
    (sound : QuestionSound policy s.births question)
    (valid : ∀ t reply, s.births <+: t.births → Learned policy t.births question reply →
      Lasts policy around party post (next reply) t) :
    Lasts policy around party post (Prog.query question >>= next) s := by
  apply valid_query
  intro later grown sane reply t answer
  have soundLater : QuestionSound policy later.births question := by
    cases question with
    | store call => exact fun row member => row_later grown (sound row member)
    | setCookie cookie => exact cookie_later grown sound
    | _ => trivial
  obtain ⟨kept, further, learned⟩ := answer_sane answer sane soundLater
  exact ⟨kept, fun _ _ => further, valid t reply (grown.trans further) learned⟩

def FreshPost (policy : Policy) (s : Shared) (result : Except Err (Session × Nat)) : Prop :=
  ∀ session reading, result = .ok (session, reading) →
    SessionSound s.births session ∧ LoadSound policy s.births session reading

theorem fresh_lifetime (party : Nat) (s : Shared) :
    Lasts policy around party (FreshPost policy) fresh s := by
  refine lifetime_query trivial ?_
  intro t reply _ _
  cases reply with
  | none =>
    rintro _ _ ⟨⟩
  | some id =>
    refine lifetime_query trivial ?_
    intro t reading _ _
    refine lifetime_query trivial ?_
    intro t number _ learned
    rintro _ _ ⟨⟩
    refine ⟨.inr ⟨reading, ⟨number, rfl, learned⟩, rfl⟩, ?_⟩
    rintro (values | flash)
    · exact absurd rfl values
    · exact absurd rfl flash

theorem discard_lifetime (party : Nat) (id : String) {failed : StoreErr → Err} (s : Shared) :
    Lasts policy around party (FreshPost policy) (discard id failed) s := by
  refine lifetime_query (by simp [QuestionSound, StoreCall.row]) ?_
  intro t reply _ _
  cases reply with
  | ok _ => exact fresh_lifetime party t
  | error err =>
    cases err with
    | notFound => exact fresh_lifetime party t
    | _ => rintro _ _ ⟨⟩

theorem load_lifetime (positive : 0 < policy.absoluteLifetime) (party : Nat) (id : String) (s : Shared) :
    Lasts policy around party (FreshPost policy) (load policy id) s := by
  unfold load
  split
  · exact fresh_lifetime party s
  refine lifetime_query (by simp [QuestionSound, StoreCall.row]) ?_
  intro t reply _ learned
  cases reply with
  | error err =>
    cases err with
    | notFound => exact fresh_lifetime party t
    | _ => rintro _ _ ⟨⟩
  | ok row =>
    have sound := learned row rfl
    simp only
    cases value : row.value with
    | malformed => rintro _ _ ⟨⟩
    | payload stored =>
      refine lifetime_query trivial ?_
      intro u reading grown _
      split
      · exact discard_lifetime party id u
      rename_i dated
      have issued : isZero stored.issuedAt = false := by simpa [positive] using dated
      simp only [issued, Bool.false_eq_true, if_false]
      split
      · exact discard_lifetime party id u
      rename_i unexpired
      rintro _ _ ⟨⟩
      rcases row_later grown sound with ⟨_, legacy⟩ | ⟨born, payload, issuedThen, same, time, _⟩
      · rw [value] at legacy
        simp [Encoded.legacy, issued] at legacy
      · rw [value] at same
        cases same
        refine ⟨.inr ⟨born, issuedThen, time⟩, fun _ => ⟨born, issuedThen, ?_⟩⟩
        have before := unexpired
        simp only [absoluteExpired, decide_eq_true_eq, not_and, not_not] at before
        rw [← time]
        exact before positive

def SessionPost {β : Type} (s : Shared) (result : β × Session) : Prop := SessionSound s.births result.2

theorem cleared_sound {births : List Nat} (session : Session) : SessionSound births session.cleared :=
  .inl ⟨rfl, rfl⟩

theorem invalidate_lifetime (party : Nat) (sound : SessionSound s.births session) :
    Lasts policy around party SessionPost (invalidate session) s := by
  unfold invalidate
  split
  · exact sound
  split
  · exact cleared_sound session
  refine lifetime_query (by simp [QuestionSound, StoreCall.row]) ?_
  intro t reply grown _
  have kept := session_later grown sound
  cases reply with
  | ok _ => exact cleared_sound session
  | error err =>
    cases err with
    | notFound => exact cleared_sound session
    | _ => exact kept

theorem expire_lifetime (party : Nat) (sound : SessionSound s.births session) :
    Lasts policy around party SessionPost (expire session) s := by
  apply valid_bind
  refine valid_mono ?_ s (invalidate_lifetime party sound)
  rintro t ⟨_ | _, result⟩ kept
  · exact kept
  · refine lifetime_query (.inl rfl) ?_
    intro u _ grown _
    exact session_later grown kept

theorem issued_lifetime (party : Nat) (reading : Nat) (sound : SessionSound s.births session) :
    Lasts policy around party
      (fun t (result : Session) => ∃ born, IssuedAt t.births result.lineage born ∧ result.issuedAt = (born : Int))
      (issued session reading) s := by
  unfold issued
  split
  · refine lifetime_query trivial ?_
    intro t number _ learned
    exact ⟨reading, ⟨number, rfl, learned⟩, rfl⟩
  · rename_i dated
    rcases sound with ⟨_, zero⟩ | known
    · exact absurd (by rw [zero]; rfl) dated
    · exact known

theorem expires_within (positive : 0 < policy.absoluteLifetime) (issuedAt now : Int) :
    expiresAt policy issuedAt now ≤ issuedAt + policy.absoluteLifetime := by
  unfold expiresAt
  simp only
  split <;> omega

theorem expires_after {issuedAt : Int} (unexpired : now < issuedAt + policy.absoluteLifetime) :
    now < expiresAt policy issuedAt now := by
  have idle := policy.idlePositive
  unfold expiresAt
  simp only
  split <;> omega

theorem max_age_within {expiry : Int} (ahead : now < expiry) :
    now + cookieMaxAge (sub expiry now) * second ≤ expiry := by
  have bounded : 0 < sub expiry now ∧ sub expiry now ≤ expiry - now := by
    unfold sub minDuration maxDuration
    omega
  have whole : (sub expiry now).tdiv second * second ≤ sub expiry now := by
    rw [Int.tdiv_eq_ediv_of_nonneg (Int.le_of_lt bounded.1)]
    exact Int.ediv_mul_le _ (by decide)
  unfold cookieMaxAge
  simp only
  split
  · unfold second
    omega
  · omega

theorem persist_lifetime (party : Nat) (session : Session) (sound : RowSound policy s.births row) :
    Lasts policy around party (fun t _ => s.births <+: t.births) (persist session row) s := by
  have writes : ∀ births, s.births <+: births → ∀ other ∈ [row], RowSound policy births other := by
    intro births grown other member
    rw [List.mem_singleton.mp member]
    exact row_later grown sound
  have one : ∀ t (call : StoreCall), s.births <+: t.births → call.row = [row] →
      Lasts policy around party (fun t _ => s.births <+: t.births) (ask (.store call)) t := by
    intro t call grown rows
    exact lifetime_query
      (by simpa [QuestionSound, rows] using writes t.births grown) (fun u _ further _ => grown.trans further)
  unfold persist
  split
  · exact one s (.create session.id row) (List.prefix_refl _) rfl
  split
  · exact one s (.update session.id row) (List.prefix_refl _) rfl
  apply valid_bind
  refine valid_mono ?_ s (one s (.rotate session.persistedID session.id row) (List.prefix_refl _) rfl)
  intro t result grown
  split
  · exact one t (.create session.id row) grown rfl
  · exact grown

theorem save_lifetime (positive : 0 < policy.absoluteLifetime) (party : Nat) (written : Bool)
    (sound : SessionSound s.births session) :
    Lasts policy around party SessionPost (save policy written session) s := by
  unfold save
  split
  · exact sound
  split
  · exact sound
  refine lifetime_query trivial ?_
  intro t reading grown _
  apply valid_bind
  refine valid_mono ?_ t (issued_lifetime party reading (session_later grown sound))
  rintro t session ⟨born, issuedThen, dated⟩
  split
  · apply valid_bind
    refine valid_mono ?_ t (expire_lifetime party (.inr ⟨born, issuedThen, dated⟩))
    rintro u ⟨_ | _, result⟩ kept <;> exact kept
  rename_i unexpired
  have before : (reading : Int) < session.issuedAt + policy.absoluteLifetime := by
    have unexpired := unexpired
    simp only [absoluteExpired, decide_eq_true_eq, not_and, not_not] at unexpired
    exact unexpired positive
  have within := expires_within positive session.issuedAt reading
  refine lifetime_query trivial ?_
  intro u encoded grown learned
  have issuedLater := issued_later grown issuedThen
  cases encoded with
  | none => exact .inr ⟨born, issuedLater, dated⟩
  | some encoded =>
    obtain rfl := learned encoded rfl
    apply valid_bind
    refine valid_mono ?_ u (persist_lifetime party session (.inr ⟨born, _, issuedLater, rfl, dated, dated ▸ within⟩))
    intro v result further
    have issuedThere := issued_later further issuedLater
    cases result with
    | error err => exact .inr ⟨born, issuedThere, dated⟩
    | ok _ =>
      have cookie := max_age_within (expires_after before)
      refine lifetime_query (.inr ⟨born, issuedThere, dated ▸ within, Int.le_trans cookie (dated ▸ within)⟩) ?_
      intro x _ last _
      exact .inr ⟨born, issued_later last issuedThere, dated⟩

theorem regenerate_lifetime (party : Nat) (rotation : Rotation) (sound : SessionSound s.births session) :
    Lasts policy around party SessionPost (regenerate rotation session) s := by
  refine lifetime_query trivial ?_
  intro t reply grown _
  have kept := session_later grown sound
  cases reply <;> exact kept

theorem destroy_lifetime (party : Nat) (written : Bool) (sound : SessionSound s.births session) :
    Lasts policy around party SessionPost (destroy written session) s := by
  unfold destroy
  split
  · exact sound
  apply valid_bind
  refine valid_mono ?_ s (expire_lifetime party sound)
  rintro t ⟨_ | _, result⟩ kept <;> exact kept

theorem invalidate_quietly_lifetime (party : Nat) (written : Bool) (sound : SessionSound s.births session) :
    Lasts policy around party SessionPost (invalidateQuietly written session) s := by
  unfold invalidateQuietly
  split
  · exact sound
  apply valid_bind
  refine valid_mono ?_ s (invalidate_lifetime party sound)
  rintro t ⟨_ | _, result⟩ kept
  · exact kept
  · refine lifetime_query trivial ?_
    intro u _ grown _
    exact session_later grown kept

def LocalSound (policy : Policy) (_ : Nat) (s : Shared) (state : Local) : Prop :=
  ∀ session, state.session = some session → SessionSound s.births session ∧
    ∀ reading, state.outcome = .loaded reading → LoadSound policy s.births session reading

theorem finish_sound (party : Nat) {success : Outcome} {result : Except Err Unit × Session}
    (unloaded : ∀ reading, success ≠ .loaded reading) (sound : SessionSound s.births result.2) :
    LocalSound policy party s (finish success result) := by
  rcases result with ⟨_ | _, session⟩
  · rintro _ ⟨⟩
    exact ⟨sound, (by rintro _ ⟨⟩)⟩
  · rintro _ ⟨⟩
    exact ⟨sound, fun reading same => absurd same (unloaded reading)⟩

theorem program_lifetime (positive : 0 < policy.absoluteLifetime) (method : Method) {state : Local}
    (sound : LocalSound policy party s state) :
    Lasts policy around party (LocalSound policy party) (program policy method state) s := by
  obtain ⟨session, outcome⟩ := state
  have finished : ∀ (success : Outcome) (prog : M (Except Err Unit × Session)),
      (∀ reading, success ≠ .loaded reading) →
      Lasts policy around party SessionPost prog s →
      Lasts policy around party (LocalSound policy party)
        (prog >>= fun result => pure (finish success result)) s := by
    intro success prog unloaded valid
    apply valid_bind
    exact valid_mono (fun t result kept => finish_sound party unloaded kept) s valid
  have empty : ∀ outcome t, LocalSound policy party t ⟨none, outcome⟩ := by
    rintro outcome t _ ⟨⟩
  cases method with
  | load id =>
    apply valid_bind
    refine valid_mono ?_ s (load_lifetime positive party id s)
    rintro t (err | ⟨loaded, reading⟩) post
    · exact empty _ t
    · rintro _ ⟨⟩
      obtain ⟨fine, within⟩ := post loaded reading rfl
      exact ⟨fine, by rintro _ ⟨⟩; exact within⟩
  | put key encoded =>
    cases session with
    | none => exact sound
    | some session =>
      refine finish_sound party (by rintro _ ⟨⟩) ?_
      cases encoded <;> exact (sound session rfl).1
  | flash key encoded =>
    cases session with
    | none => exact sound
    | some session =>
      refine finish_sound party (by rintro _ ⟨⟩) ?_
      cases encoded <;> exact (sound session rfl).1
  | forget key =>
    cases session with
    | none => exact sound
    | some session =>
      rintro _ ⟨⟩
      exact ⟨(sound session rfl).1, by rintro _ ⟨⟩⟩
  | save written =>
    cases session with
    | none => exact empty _ s
    | some session =>
      exact finished .saved _ (by rintro _ ⟨⟩) (save_lifetime positive party written (sound session rfl).1)
  | regenerate rotation =>
    cases session with
    | none => exact empty _ s
    | some session =>
      exact finished .done _ (by rintro _ ⟨⟩) (regenerate_lifetime party rotation (sound session rfl).1)
  | destroy written =>
    cases session with
    | none =>
      cases written with
      | true => exact empty _ s
      | false => exact lifetime_query (.inl rfl) (fun t _ _ _ => empty _ t)
    | some session =>
      exact finished .done _ (by rintro _ ⟨⟩) (destroy_lifetime party written (sound session rfl).1)
  | invalidate written =>
    cases session with
    | none =>
      cases written with
      | true => exact empty _ s
      | false => exact lifetime_query trivial (fun t _ _ _ => empty _ t)
    | some session =>
      exact finished .done _ (by rintro _ ⟨⟩)
        (invalidate_quietly_lifetime party written (sound session rfl).1)

theorem lifetime_sound (around : Surroundings) (positive : 0 < policy.absoluteLifetime) :
    Sound (world around) (lifetimeRules policy) (program policy) (fun _ => idleLocal) (LocalSound policy) where
  starts s initial := by
    refine ⟨⟨?_, ?_, ?_⟩, fun party => by rintro _ ⟨⟩⟩
    · intro id row found
      obtain ⟨legacy, none, _⟩ := initial.legacy id row found
      exact .inl ⟨none, legacy⟩
    · simp [initial.unwritten]
    · simp [initial.unsent]
  drifts s t sane drifted := by
    obtain ⟨rows, clock, _, purged, rfl⟩ := drifted
    refine ⟨⟨?_, sane.writes, sane.cookies⟩, fun _ => List.prefix_refl _⟩
    intro id row found
    rcases purged id with same | ⟨gone, _⟩
    · exact sane.rows id row (same.symm.trans found)
    · cases gone.symm.trans found
  stable party s t state sound grown := by
    intro session held
    obtain ⟨fine, loaded⟩ := sound session held
    exact ⟨session_later grown fine, fun reading same => load_later grown (loaded reading same)⟩
  methods party s state method _ sound := program_lifetime positive method sound

end

theorem absolute_session_lifetime (around : Surroundings) (policy : Policy)
    (positive : 0 < policy.absoluteLifetime) (c : Config Shared Nat Reply Local)
    (reached : Reach (requests around policy) c) :
    (∀ party session reading, c.progs party = .ret ⟨some session, .loaded reading⟩ →
      (session.values ≠ ∅ ∨ session.oldFlash ≠ ∅) →
      ∃ t, IssuedAt c.world.births session.lineage t ∧ (reading : Int) < t + policy.absoluteLifetime) ∧
    (∀ row ∈ c.world.writes, ∀ t, IssuedAt c.world.births row.lineage t →
      row.expiresAt ≤ t + policy.absoluteLifetime) ∧
    ∀ cookie ∈ c.world.cookies, ∀ t, IssuedAt c.world.births cookie.lineage t →
      cookie.expires ≤ t + policy.absoluteLifetime ∧
      cookie.madeAt + cookie.maxAge * second ≤ t + policy.absoluteLifetime := by
  obtain ⟨sane, valid⟩ := reach_kept (lifetime_sound around positive) c reached
  have same : ∀ lineage t u, IssuedAt c.world.births lineage t → IssuedAt c.world.births lineage u → t = u := by
    rintro lineage t u ⟨number, rfl, first⟩ ⟨other, named, second⟩
    cases named
    exact Option.some.inj (first.symm.trans second)
  refine ⟨?_, ?_, ?_⟩
  · intro party session reading returned values
    have here := valid party
    rw [returned] at here
    exact (here session rfl).2 reading rfl values
  · intro row member t issued
    rcases sane.writes row member with ⟨none, _⟩ | ⟨born, _, known, _, _, within⟩
    · obtain ⟨number, named, _⟩ := issued
      cases none.symm.trans named
    · rw [same row.lineage t born issued known]
      exact within
  · intro cookie member t issued
    rcases sane.cookies cookie member with none | ⟨born, known, within⟩
    · obtain ⟨number, named, _⟩ := issued
      cases none.symm.trans named
    · rw [same cookie.lineage t born issued known]
      exact within

def reloaded : Config Shared Nat Reply Local :=
  samplePlay shortPolicy [(0, .load ""), (0, .put (ascii "user") (some "1")), (0, .save false), (1, .load "x")]

theorem absolute_session_lifetime_reloaded :
    ∃ session, reloaded.progs 1 = .ret ⟨some session, .loaded 100⟩ ∧ session.values.lookup (ascii "user") = some "1" ∧
      ∃ t, IssuedAt reloaded.world.births session.lineage t ∧ ((100 : Nat) : Int) < t + 150 := by
  have loaded : ∃ session, reloaded.progs 1 = .ret ⟨some session, .loaded 100⟩ ∧
      session.values.lookup (ascii "user") = some "1" := ⟨_, rfl, rfl⟩
  obtain ⟨session, returned, held⟩ := loaded
  have safe := absolute_session_lifetime ⟨true, true⟩ shortPolicy (by decide) reloaded (sample_play_reached _ _ _)
  refine ⟨session, returned, held, safe.1 1 session 100 returned (.inl ?_)⟩
  intro empty
  rw [empty] at held
  cases held

end Goforge.Sessions
