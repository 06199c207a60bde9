import Goforge.Lib.GoUrl
import Goforge.Lib.Strconv

set_option autoImplicit false

namespace Goforge.Httpx

open GoString GoUrl

def formMediaType : Bytes := ascii "application/x-www-form-urlencoded"

def defaultMaxBodyBytes : Int := 1048576

def statusBadRequest : Nat := 400

def statusRequestEntityTooLarge : Nat := 413

def statusUnsupportedMediaType : Nat := 415

inductive Cause where
  | tooLarge (limit : Int)
  | reading (err : Bytes)
  | parsing (err : Bytes)
deriving DecidableEq, Repr

structure HTTPError where
  status : Nat
  message : Bytes
  cause : Option Cause
deriving DecidableEq, Repr

inductive FormError where
  | plain (message : Bytes)
  | http (err : HTTPError)
deriving DecidableEq, Repr

structure Body where
  bytes : Bytes
  failure : Option Bytes
deriving DecidableEq, Repr

structure Request where
  method : Bytes
  path : Bytes
  contentType : Bytes
  body : Option Body
deriving DecidableEq, Repr

-- The fields of a Context that belong to its form.
structure FormContext where
  form : Values
  formErr : Option HTTPError
  formParsed : Bool
  formBytes : Nat
  postForm : Values
deriving DecidableEq, Repr

def newFormContext : FormContext := { form := [], formErr := none, formParsed := false, formBytes := 0, postForm := [] }

-- http.NoBody in place of a nil body.
def Request.content (request : Request) : Body := request.body.getD { bytes := [], failure := none }

-- io.ReadAll of a http.MaxBytesReader.
def readAll (limit : Int) (body : Body) : Except Cause Bytes :=
  if limit < body.bytes.length then .error (.tooLarge limit)
  else
    match body.failure with
    | some err => .error (.reading err)
    | none => .ok body.bytes

def tooLargeError : HTTPError :=
  { status := statusRequestEntityTooLarge, message := ascii "form body is too large", cause := none }

def invalidFormError : HTTPError :=
  { status := statusBadRequest, message := ascii "invalid URL-encoded form body", cause := none }

def mediaTypeError : HTTPError :=
  { status := statusUnsupportedMediaType
    message := ascii "Content-Type must be application/x-www-form-urlencoded"
    cause := none }

section

-- mime.ParseMediaType, without the parameters it also returns; none is an error.
variable (parseMediaType : Bytes → Option Bytes)

def isURLForm (contentType : Bytes) : Bool := decide (parseMediaType contentType = some formMediaType)

def parseForm (request : Request) (maxBytes : Int) : Except HTTPError (Values × Nat) :=
  if isURLForm parseMediaType request.contentType then
    match readAll maxBytes request.content with
    | .error (.tooLarge limit) => .error { tooLargeError with cause := some (.tooLarge limit) }
    | .error cause => .error { invalidFormError with cause := some cause }
    | .ok encoded =>
      if validUtf8 encoded then
        match parseQuery encoded with
        | .error err => .error { invalidFormError with cause := some (.parsing err) }
        | .ok values =>
          if values.all (fun entry => validUtf8 entry.1 && validUtf8 entry.2) then .ok (values, encoded.length)
          else .error invalidFormError
      else .error invalidFormError
  else .error mediaTypeError

def formLimit (request : Request) (maxBytes : Int) (ctx : FormContext) : Except FormError Values × FormContext :=
  if maxBytes ≤ 0 then (.error (.plain (ascii "form body limit must be positive")), ctx)
  else if ctx.formParsed then
    match ctx.formErr with
    | some err => (.error (.http err), ctx)
    | none => if maxBytes < ctx.formBytes then (.error (.http tooLargeError), ctx) else (.ok ctx.form, ctx)
  else
    match parseForm parseMediaType request maxBytes with
    | .error err => (.error (.http err), { ctx with formParsed := true, formErr := some err })
    | .ok (values, size) =>
      (.ok values, { ctx with formParsed := true, form := values, formBytes := size, postForm := values })

-- Form.Value: a field that is repeated has no single value.
def formValue (printable : Nat → Bool) (values : Values) (name : Bytes) : Except HTTPError Bytes :=
  match values.get name with
  | [] => .ok []
  | [value] => .ok value
  | _ =>
    .error
      { status := statusBadRequest
        message := ascii "form field " ++ Strconv.quote printable name ++ ascii " must appear at most once"
        cause := none }

def allowedPath (prefixes : List Bytes) (requestPath : Bytes) : Bool :=
  prefixes = [] || prefixes.any (fun start => start ≠ [] && start.isPrefixOf requestPath)

-- No rune past ASCII has a letter of these as its upper case.
def overrides : List Bytes := [ascii "PUT", ascii "PATCH", ascii "DELETE"]

-- MethodOverride up to the call of the next handler: the method it then sees and
-- the context as it is then.
def methodOverride (printable : Nat → Bool) (prefixes : List Bytes) (request : Request) (ctx : FormContext) :
    Except FormError (Bytes × FormContext) :=
  if request.method = ascii "POST" ∧ allowedPath prefixes request.path = true ∧
      isURLForm parseMediaType request.contentType = true then
    match formLimit parseMediaType request defaultMaxBodyBytes ctx with
    | (.error err, _) => .error err
    | (.ok values, ctx) =>
      match formValue printable values (ascii "_method") with
      | .error err => .error (.http err)
      | .ok method =>
        if method = [] then .ok (request.method, ctx)
        else if toUpper (trimSpace method) ∈ overrides then .ok (toUpper (trimSpace method), ctx)
        else
          .error (.http
            { status := statusBadRequest
              message := ascii "form method override must be PUT, PATCH, or DELETE"
              cause := none })
  else .ok (request.method, ctx)

def formLimits (request : Request) : List Int → FormContext → List (Except FormError Values)
  | [], _ => []
  | limit :: rest, ctx =>
    let outcome := formLimit parseMediaType request limit ctx
    outcome.1 :: formLimits request rest outcome.2

structure IsForm (request : Request) (values : Values) : Prop where
  media : isURLForm parseMediaType request.contentType = true
  whole : request.content.failure = none
  encoded : validUtf8 request.content.bytes = true
  parsed : parseQuery request.content.bytes = .ok values
  decoded : ∀ entry ∈ values, validUtf8 entry.1 = true ∧ validUtf8 entry.2 = true

def Accepts (request : Request) (limit : Int) : Prop :=
  (∃ values, IsForm parseMediaType request values) ∧ request.content.bytes.length ≤ limit

structure HistoryIndependent (request : Request) (limits : List Int) (results : List (Except FormError Values)) :
    Prop where
  exact : ∀ (call : Nat) limit result, limits[call]? = some limit → results[call]? = some result →
    ((∃ values, result = .ok values) ↔ Accepts parseMediaType request limit)
  agree : ∀ values values', .ok values ∈ results → .ok values' ∈ results → values = values'

end

section

variable {parseMediaType : Bytes → Option Bytes}

theorem read_all_ok (limit : Int) (body : Body) (bytes : Bytes) :
    readAll limit body = .ok bytes ↔ body.failure = none ∧ body.bytes.length ≤ limit ∧ bytes = body.bytes := by
  rw [readAll]
  by_cases large : limit < body.bytes.length
  · rw [if_pos large]
    exact iff_of_false (by rintro ⟨⟩) (fun ⟨_, small, _⟩ => absurd large (Int.not_lt.mpr small))
  · rw [if_neg large]
    cases body.failure with
    | some err => exact iff_of_false (by rintro ⟨⟩) (by rintro ⟨⟨⟩, _⟩)
    | none =>
      simp only [Except.ok.injEq, true_and]
      exact ⟨fun same => ⟨Int.not_lt.mp large, same.symm⟩, fun both => both.2.symm⟩

theorem parse_form_ok (request : Request) (limit : Int) (values : Values) (size : Nat) :
    parseForm parseMediaType request limit = .ok (values, size) ↔
      IsForm parseMediaType request values ∧ request.content.bytes.length ≤ limit ∧
      size = request.content.bytes.length := by
  rw [parseForm]
  constructor
  · intro run
    split at run
    · rename_i media
      split at run
      · cases run
      · cases run
      · rename_i encoded read
        obtain ⟨whole, small, rfl⟩ := (read_all_ok limit request.content encoded).mp read
        split at run
        · rename_i valid
          split at run
          · cases run
          rename_i found parsed
          split at run
          · rename_i decoded
            cases run
            refine ⟨⟨media, whole, valid, parsed, ?_⟩, small, rfl⟩
            intro entry member
            exact Bool.and_eq_true_iff.mp (List.all_eq_true.mp decoded entry member)
          · cases run
        · cases run
    · cases run
  · rintro ⟨form, small, rfl⟩
    have read := (read_all_ok limit request.content request.content.bytes).mpr ⟨form.whole, small, rfl⟩
    have decoded : values.all (fun entry => validUtf8 entry.1 && validUtf8 entry.2) = true :=
      List.all_eq_true.mpr (fun entry member => Bool.and_eq_true_iff.mpr (form.decoded entry member))
    simp only [form.media, if_true, read, form.encoded, form.parsed, decoded]

variable {ctx : FormContext} {limits : List Int} {request : Request}

theorem form_limits_failed (request : Request) (limits : List Int) {err : HTTPError} (parsed : ctx.formParsed = true)
    (failed : ctx.formErr = some err) :
    ∀ result ∈ formLimits parseMediaType request limits ctx, ¬ ∃ values, result = .ok values := by
  induction limits with
  | nil =>
    rw [formLimits]
    rintro result ⟨⟩
  | cons limit rest ih =>
    have call : ∃ problem, formLimit parseMediaType request limit ctx = (.error problem, ctx) := by
      rw [formLimit]
      split
      · exact ⟨_, rfl⟩
      · simp only [failed]
        exact ⟨_, rfl⟩
    obtain ⟨problem, call⟩ := call
    rw [formLimits]
    simp only [call]
    intro result member
    rcases List.mem_cons.mp member with rfl | later
    · rintro ⟨values, ⟨⟩⟩
    · exact ih result later

theorem form_limits_parsed (request : Request) (positive : ∀ limit ∈ limits, 0 < limit) (parsed : ctx.formParsed = true)
    (kept : ctx.formErr = none) :
    formLimits parseMediaType request limits ctx =
      limits.map (fun limit : Int => if limit < ctx.formBytes then .error (.http tooLargeError) else .ok ctx.form) := by
  induction limits with
  | nil => rfl
  | cons limit rest ih =>
    have call : formLimit parseMediaType request limit ctx =
        (if limit < ctx.formBytes then .error (.http tooLargeError) else .ok ctx.form, ctx) := by
      rw [formLimit, if_neg (Int.not_le.mpr (positive limit List.mem_cons_self))]
      simp only [parsed, kept, if_true]
      split <;> rfl
    rw [formLimits, List.map_cons]
    simp only [call]
    rw [ih (fun other member => positive other (List.mem_cons_of_mem limit member))]

theorem first_call (request : Request) (limit : Int) (positive : 0 < limit) :
    formLimit parseMediaType request limit newFormContext =
      match parseForm parseMediaType request limit with
      | .error err => (.error (.http err), { newFormContext with formParsed := true, formErr := some err })
      | .ok (values, size) =>
        (.ok values,
          { newFormContext with formParsed := true, form := values, formBytes := size, postForm := values }) := by
  rw [formLimit, if_neg (Int.not_le.mpr positive)]
  rfl

theorem first_call_failed {first : Int} (rest : List Int) (positive : 0 < first)
    (refused : ¬ Accepts parseMediaType request first) :
    ∀ result ∈ formLimits parseMediaType request (first :: rest) newFormContext, ¬ ∃ values, result = .ok values := by
  rw [formLimits, first_call request first positive]
  cases parsed : parseForm parseMediaType request first with
  | ok pair =>
    obtain ⟨values, size⟩ := pair
    obtain ⟨form, small, _⟩ := (parse_form_ok request first values size).mp parsed
    exact absurd ⟨⟨values, form⟩, small⟩ refused
  | error err =>
    simp only
    intro result member
    rcases List.mem_cons.mp member with rfl | later
    · rintro ⟨values, ⟨⟩⟩
    · exact form_limits_failed request rest rfl rfl result later

theorem first_call_accepted {first : Int} {rest : List Int} {values : Values}
    (positive : ∀ limit ∈ first :: rest, 0 < limit) (form : IsForm parseMediaType request values)
    (small : request.content.bytes.length ≤ first) :
    formLimits parseMediaType request (first :: rest) newFormContext =
      (first :: rest).map (fun limit : Int =>
        if limit < request.content.bytes.length then .error (.http tooLargeError) else .ok values) := by
  have parsed := (parse_form_ok request first values request.content.bytes.length).mpr ⟨form, small, rfl⟩
  rw [formLimits, first_call request first (positive first List.mem_cons_self), parsed, List.map_cons,
    if_neg (Int.not_lt.mpr small)]
  simp only
  rw [form_limits_parsed request (fun limit member => positive limit (List.mem_cons_of_mem first member)) rfl rfl]

theorem form_limits_length (request : Request) {limits : List Int} {ctx : FormContext} :
    (formLimits parseMediaType request limits ctx).length = limits.length := by
  induction limits generalizing ctx with
  | nil => rfl
  | cons limit rest ih => rw [formLimits, List.length_cons, List.length_cons, ih]

theorem all_failed_independent (request : Request) {results : List (Except FormError Values)}
    (length : results.length = limits.length) (fail : ∀ result ∈ results, ¬ ∃ values, result = .ok values) :
    HistoryIndependent parseMediaType request limits results ↔ ∀ limit ∈ limits,
    ¬ Accepts parseMediaType request limit := by
  constructor
  · rintro ⟨exact', _⟩ limit member accepted
    obtain ⟨call, here⟩ := List.mem_iff_getElem?.mp member
    have bound : call < results.length := length ▸ (List.getElem?_eq_some_iff.mp here).1
    have there := List.getElem?_eq_getElem bound
    exact fail _ (List.getElem_mem bound) ((exact' call limit _ here there).mpr accepted)
  · intro refused
    refine ⟨?_, ?_⟩
    · intro call limit result here there
      exact iff_of_false (fail result (List.mem_of_getElem? there)) (refused limit (List.mem_of_getElem? here))
    · intro values _ member _
      exact absurd ⟨values, rfl⟩ (fail _ member)

theorem accepted_independent (limits : List Int) {values : Values} (form : IsForm parseMediaType request values) :
    HistoryIndependent parseMediaType request limits
      (limits.map (fun limit : Int =>
        if limit < request.content.bytes.length then .error (.http tooLargeError) else .ok values)) := by
  refine ⟨?_, ?_⟩
  · intro call limit result here there
    rw [List.getElem?_map, here, Option.map_some, Option.some.injEq] at there
    subst there
    split
    · rename_i large
      exact iff_of_false (by rintro ⟨_, ⟨⟩⟩) (fun accepted => absurd large (Int.not_lt.mpr accepted.2))
    · rename_i small
      exact iff_of_true ⟨values, rfl⟩ ⟨⟨values, form⟩, Int.not_lt.mp small⟩
  · have only : ∀ found, Except.ok found ∈ limits.map (fun limit : Int =>
        if limit < request.content.bytes.length then Except.error (FormError.http tooLargeError) else .ok values) →
        found = values := by
      intro found member
      obtain ⟨limit, _, same⟩ := List.mem_map.mp member
      split at same
      · cases same
      · exact (Except.ok.inj same).symm
    intro found found' first second
    rw [only found first, only found' second]

theorem form_limits_history_independent_iff (request : Request) (limits : List Int)
    (positive : ∀ limit ∈ limits, 0 < limit) :
    HistoryIndependent parseMediaType request limits (formLimits parseMediaType request limits newFormContext) ↔
      ∀ first rest, limits = first :: rest → (∃ values, IsForm parseMediaType request values) →
        request.content.bytes.length ≤ first ∨ ∀ limit ∈ rest, limit < request.content.bytes.length := by
  cases limits with
  | nil =>
    refine iff_of_true ⟨?_, ?_⟩ (by rintro first rest ⟨⟩)
    · rintro call limit result ⟨⟩
    · rw [formLimits]
      rintro values values' ⟨⟩
  | cons first rest =>
    by_cases accepted : Accepts parseMediaType request first
    · obtain ⟨⟨values, form⟩, small⟩ := accepted
      rw [first_call_accepted positive form small]
      refine iff_of_true (accepted_independent (first :: rest) form) ?_
      rintro _ _ ⟨⟩ _
      exact .inl small
    · have fail := first_call_failed rest (positive first List.mem_cons_self) accepted
      rw [all_failed_independent request (form_limits_length request) fail]
      constructor
      · rintro refused _ _ ⟨⟩ form
        refine .inr (fun limit member => Int.not_le.mp (fun small => ?_))
        exact refused limit (List.mem_cons_of_mem first member) ⟨form, small⟩
      · rintro holds limit member ⟨form, small⟩
        rcases holds first rest rfl form with fits | short
        · exact accepted ⟨form, fits⟩
        · rcases List.mem_cons.mp member with rfl | later
          · exact accepted ⟨form, small⟩
          · exact absurd (short limit later) (Int.not_lt.mpr small)

-- A handler behind MethodOverride, which has parsed the form, is told exactly
-- which of its own limits the body keeps.
theorem method_override_exact {printable : Nat → Bool} {prefixes : List Bytes} {method : Bytes}
    (positive : ∀ limit ∈ limits, 0 < limit) (post : request.method = ascii "POST")
    (allowed : allowedPath prefixes request.path = true) (media : isURLForm parseMediaType request.contentType = true)
    (passed : methodOverride parseMediaType printable prefixes request newFormContext = .ok (method, ctx)) :
    HistoryIndependent parseMediaType request limits (formLimits parseMediaType request limits ctx) := by
  rw [methodOverride, if_pos ⟨post, allowed, media⟩, first_call request defaultMaxBodyBytes (by decide)] at passed
  cases parsed : parseForm parseMediaType request defaultMaxBodyBytes with
  | error err =>
    rw [parsed] at passed
    cases passed
  | ok pair =>
    obtain ⟨values, size⟩ := pair
    obtain ⟨form, _, rfl⟩ := (parse_form_ok request defaultMaxBodyBytes values size).mp parsed
    have after : ctx =
        { newFormContext with
          formParsed := true, form := values, formBytes := request.content.bytes.length, postForm := values } := by
      simp only [parsed] at passed
      split at passed
      · cases passed
      split at passed
      · cases passed
        rfl
      · split at passed
        · cases passed
          rfl
        · cases passed
    rw [after, form_limits_parsed request positive rfl rfl]
    exact accepted_independent limits form

end

def smallForm : Request :=
  { method := ascii "POST", path := ascii "/", contentType := formMediaType
    body := some { bytes := ascii "a=1", failure := none } }

theorem small_is_form : IsForm some smallForm [(ascii "a", ascii "1")] :=
  { media := by decide +kernel, whole := rfl, encoded := by decide +kernel, parsed := by decide +kernel,
    decoded := by decide +kernel }

theorem form_limits_history_independent_iff_sample :
    HistoryIndependent some smallForm [3, 1, 4] (formLimits some smallForm [3, 1, 4] newFormContext) := by
  refine (form_limits_history_independent_iff smallForm [3, 1, 4] (by decide)).mpr ?_
  rintro _ _ ⟨⟩ _
  exact .inl (by decide)

theorem method_override_exact_small :
    let ctx : FormContext := ⟨[(ascii "a", ascii "1")], none, true, 3, [(ascii "a", ascii "1")]⟩
    methodOverride some (fun _ => true) [] smallForm newFormContext = .ok (ascii "POST", ctx) ∧
      HistoryIndependent some smallForm [1, 3] (formLimits some smallForm [1, 3] ctx) := by
  intro ctx
  have passed : methodOverride some (fun _ => true) [] smallForm newFormContext = .ok (ascii "POST", ctx) := by
    decide +kernel
  exact ⟨passed, method_override_exact (by decide) rfl rfl (by decide +kernel) passed⟩

theorem smaller_limit_poisons_form : formLimits some smallForm [1, 3] newFormContext =
      [.error (.http { tooLargeError with cause := some (.tooLarge 1) }),
        .error (.http { tooLargeError with cause := some (.tooLarge 1) })] ∧
    Accepts some smallForm 3 ∧
    ¬ HistoryIndependent some smallForm [1, 3] (formLimits some smallForm [1, 3] newFormContext) := by
  have results : formLimits some smallForm [1, 3] newFormContext =
      [.error (.http { tooLargeError with cause := some (.tooLarge 1) }),
        .error (.http { tooLargeError with cause := some (.tooLarge 1) })] := by decide +kernel
  have accepted : Accepts some smallForm 3 := ⟨⟨_, small_is_form⟩, by decide⟩
  refine ⟨results, accepted, ?_⟩
  rw [results]
  rintro ⟨exact', _⟩
  obtain ⟨values, same⟩ := (exact' 1 3 _ rfl rfl).mpr accepted
  cases same

end Goforge.Httpx
