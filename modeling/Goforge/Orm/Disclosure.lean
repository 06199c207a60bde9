import Goforge.Orm.Classify

set_option autoImplicit false

namespace Goforge.Orm.Postgres

open GoString

def PgError.neutral (native : PgError) : Option Neutral :=
  if native.code = codeUnique then some (.constraint .unique native.constraintName native.code)
  else if native.code = codeForeignKey then some (.constraint .foreignKey native.constraintName native.code)
  else if native.code = codeNotNull then
    some (.constraint .notNull (if native.constraintName = [] then native.columnName else native.constraintName)
      native.code)
  else if native.code = codeCheck then some (.constraint .check native.constraintName native.code)
  else if native.code = codeSerialization then some (.transient .serialization native.code)
  else if native.code = codeDeadlock then some (.transient .deadlock native.code)
  else none

def knownCodes : List Bytes :=
  [codeUnique, codeForeignKey, codeNotNull, codeCheck, codeSerialization, codeDeadlock]

theorem classified_neutral {native : PgError} (cause : Err) (found : cause.asPg = some native) :
    native.classified cause = native.neutral.map (fun kind => .neutral kind cause) := by
  simp only [PgError.classified, PgError.neutral, constraintError, found]
  repeat' split
  all_goals rfl

theorem neutral_known {native : PgError} (known : native.code ∈ knownCodes) : ∃ kind, native.neutral = some kind := by
  simp only [knownCodes, List.mem_cons, List.not_mem_nil, or_false] at known
  rw [PgError.neutral]
  rcases known with same | same | same | same | same | same
  all_goals
    rw [same]
    exact ⟨_, rfl⟩

theorem native_cases (err : Err) :
    (err.asPg.bind PgError.neutral = none ∧ classifyNative err = (err, false)) ∨
      ∃ kind code, err.asPg.bind PgError.neutral = some kind ∧
        classifyNative err = (.neutral kind (.wrap (.safeCause code) err), true) := by
  rw [classifyNative]
  cases found : err.asPg with
  | none => exact .inl ⟨rfl, rfl⟩
  | some native =>
    have switched := classified_neutral (.wrap (.safeCause native.code) err) found
    rw [Option.bind_some]
    cases kind : native.neutral with
    | none =>
      rw [kind] at switched
      simp only [switched, Option.map_none]
      exact .inl ⟨trivial, trivial⟩
    | some kind' =>
      rw [kind] at switched
      simp only [switched, Option.map_some]
      exact .inr ⟨kind', native.code, rfl, rfl⟩

theorem classify_persistence (operation : Operation) (table : Bytes) (cause : Err) :
    classify (.persistence operation table cause) =
      if (classify cause).2 then (.persistence operation table (classify cause).1, true)
      else (.persistence operation table cause, false) := by
  rw [classify]
  rcases classify cause with ⟨classified, _ | _⟩ <;> rfl

theorem classify_multi (text : Option Bytes) (causes : Errs) :
    classify (.multi text causes) =
      if (classifyAll causes).2 then (joinErrors (classifyAll causes).1, true) else (.multi text causes, false) := by
  rw [classify]
  rcases classifyAll causes with ⟨classified, _ | _⟩ <;> rfl

theorem classify_wrap (wrapper : Wrapper) (cause : Err) :
    classify (.wrap wrapper cause) =
      if (classify cause).2 then ((classify cause).1, true) else classifyNative (.wrap wrapper cause) := by
  rw [classify]
  rcases classify cause with ⟨classified, _ | _⟩ <;> rfl

variable {err : Err}

theorem native_unchanged (same : (classifyNative err).2 = false) : (classifyNative err).1 = err := by
  rcases native_cases err with ⟨_, kept⟩ | ⟨_, _, _, changed⟩
  · rw [kept]
  · rw [changed] at same
    cases same

mutual

theorem classify_unchanged : ∀ err : Err, (classify err).2 = false → (classify err).1 = err
  | .leaf _, same => native_unchanged same
  | .pg _, same => native_unchanged same
  | .neutral _ _, _ => rfl
  | .persistence operation table cause, same => by
      rw [classify_persistence] at same ⊢
      split at same
      · cases same
      rename_i kept
      rw [if_neg kept]
  | .multi text causes, same => by
      rw [classify_multi] at same ⊢
      split at same
      · cases same
      rename_i kept
      rw [if_neg kept]
  | .wrap wrapper cause, same => by
      rw [classify_wrap] at same ⊢
      split at same
      · cases same
      rename_i kept
      rw [if_neg kept]
      exact native_unchanged same

theorem classify_all_unchanged : ∀ errs : Errs, (classifyAll errs).2 = false → (classifyAll errs).1 = errs
  | .nil, _ => rfl
  | .cons first rest, same => by
      have parts : (classify first).2 = false ∧ (classifyAll rest).2 = false := Bool.or_eq_false_iff.mp same
      simp only [classifyAll, classify_unchanged first parts.1, classify_all_unchanged rest parts.2]

end

theorem present_unchanged {errs : Errs} (same : (classifyAll errs).2 = false) :
    (classifyAll errs.present).2 = false := by
  match errs with
  | .nil => rfl
  | .cons first rest =>
    have parts : (classify first).2 = false ∧ (classifyAll rest).2 = false := Bool.or_eq_false_iff.mp same
    rw [Errs.present]
    split
    · exact present_unchanged parts.2
    · exact Bool.or_eq_false_iff.mpr ⟨parts.1, present_unchanged parts.2⟩

theorem join_unchanged {errs : Errs} (same : (classifyAll errs).2 = false) :
    (classify (joinErrors errs)).2 = false := by
  have kept := present_unchanged same
  rw [joinErrors]
  split
  · rfl
  rename_i first rest shape
  rw [shape] at kept
  rw [classify_multi, if_neg (by rw [kept]; exact Bool.false_ne_true)]

theorem native_settled (same : (classifyNative err).2 = true) : (classify (classifyNative err).1).2 = false := by
  rcases native_cases err with ⟨_, kept⟩ | ⟨_, _, _, changed⟩
  · rw [kept] at same
    cases same
  · rw [changed]
    rfl

mutual

theorem classify_settled : ∀ err : Err, (classify err).2 = true → (classify (classify err).1).2 = false
  | .leaf _, changed => native_settled changed
  | .pg _, changed => native_settled changed
  | .neutral _ _, changed => by cases changed
  | .persistence operation table cause, changed => by
      rw [classify_persistence] at changed ⊢
      split at changed
      · rename_i inner
        rw [if_pos inner, classify_persistence, classify_settled cause inner, if_neg Bool.false_ne_true]
      · cases changed
  | .multi text causes, changed => by
      rw [classify_multi] at changed ⊢
      split at changed
      · rename_i inner
        rw [if_pos inner]
        exact join_unchanged (classify_all_settled causes)
      · cases changed
  | .wrap wrapper cause, changed => by
      rw [classify_wrap] at changed ⊢
      split at changed
      · rename_i inner
        rw [if_pos inner]
        exact classify_settled cause inner
      · rename_i inner
        rw [if_neg inner]
        exact native_settled changed

theorem classify_all_settled : ∀ errs : Errs, (classifyAll (classifyAll errs).1).2 = false
  | .nil => rfl
  | .cons first rest => by
      refine Bool.or_eq_false_iff.mpr ⟨?_, classify_all_settled rest⟩
      cases changed : (classify first).2 with
      | true => exact classify_settled first changed
      | false =>
        have kept := classify_unchanged first changed
        simp only [kept]
        exact changed

end

theorem present_as (errs : Errs) : errs.present.asPg = errs.asPg := by
  match errs with
  | .nil => rfl
  | .cons first rest =>
    have others := present_as rest
    rw [Errs.present]
    split
    · rename_i empty
      cases first with
      | leaf kind => exact others
      | _ => cases empty
    · rw [Errs.asPg, others]
      rfl

theorem join_as {errs : Errs} : (joinErrors errs).asPg = errs.asPg := by
  rw [← present_as errs, joinErrors]
  split
  · rename_i shape
    rw [shape]
    rfl
  · rename_i first rest shape
    rw [shape]
    rfl

theorem native_as {err : Err} : (classifyNative err).1.asPg = err.asPg := by
  rcases native_cases err with ⟨_, kept⟩ | ⟨_, _, _, changed⟩
  · rw [kept]
  · rw [changed]
    rfl

mutual

theorem classify_as : ∀ err : Err, (classify err).1.asPg = err.asPg
  | .leaf _ => native_as
  | .pg _ => native_as
  | .neutral _ _ => rfl
  | .persistence operation table cause => by
      rw [classify_persistence]
      split
      · exact classify_as cause
      · rfl
  | .multi text causes => by
      rw [classify_multi]
      split
      · exact (join_as).trans (classify_all_as causes)
      · rfl
  | .wrap wrapper cause => by
      rw [classify_wrap]
      split
      · exact classify_as cause
      · exact native_as

theorem classify_all_as : ∀ errs : Errs, (classifyAll errs).1.asPg = errs.asPg
  | .nil => rfl
  | .cons first rest => by
      simp only [classifyAll, Errs.asPg, classify_as first, classify_all_as rest]

end

theorem classify_error_cases (plain : err.isContext = false) : classifyError err = (classify err).1 := by
  rw [classifyError, plain, Bool.or_false]
  split
  · rename_i empty
    cases err with
    | leaf kind =>
      cases kind with
      | nil => rfl
      | _ => cases empty
    | _ => cases empty
  · cases result : classify err with
    | mk classified changed =>
      cases changed with
      | true => rfl
      | false =>
        have kept := classify_unchanged err (by rw [result])
        rw [result] at kept
        exact kept.symm

def Wrapper.edit (text : Bytes → Bytes) (quotes : Bool) : Wrapper → Wrapper
  | .formatted own => .formatted (if quotes then text own else own)
  | .safeCause code => .safeCause code

mutual

-- Another text for every wrapper that has a PgError below it, and other
-- PgErrors.
def Err.edit (native : PgError → PgError) (text : Bytes → Bytes) : Err → Err
  | .leaf kind => .leaf kind
  | .wrap wrapper cause => .wrap (wrapper.edit text cause.asPg.isSome) (cause.edit native text)
  | .multi own causes => .multi (if causes.asPg.isSome then own.map text else own) (causes.edit native text)
  | .persistence operation table cause => .persistence operation table (cause.edit native text)
  | .neutral kind cause => .neutral kind (cause.edit native text)
  | .pg own => .pg (native own)

def Errs.edit (native : PgError → PgError) (text : Bytes → Bytes) : Errs → Errs
  | .nil => .nil
  | .cons first rest => .cons (first.edit native text) (rest.edit native text)

end

def PgError.redact (native : PgError) : PgError := { native with message := [], detail := [] }

-- What is left of a tree when messages, details and the texts that may quote
-- them are taken away.
def Err.redact : Err → Err := Err.edit PgError.redact (fun _ => [])

mutual

def Err.known : Err → Bool
  | .leaf _ => true
  | .wrap _ cause => cause.known
  | .multi _ causes => causes.known
  | .persistence _ _ cause => cause.known
  | .neutral _ cause => cause.known
  | .pg native => native.code ∈ knownCodes

def Errs.known : Errs → Bool
  | .nil => true
  | .cons first rest => first.known && rest.known

end

mutual

-- A tree with known codes is rebuilt where a PgError is not yet below a
-- ConstraintError or TransientError, or is below an error with one cause.
def Err.rebuilt : Err → Bool
  | .leaf _ => false
  | .wrap _ cause => cause.asPg.isSome
  | .multi _ causes => causes.rebuilt
  | .persistence _ _ cause => cause.rebuilt
  | .neutral _ _ => false
  | .pg _ => true

def Errs.rebuilt : Errs → Bool
  | .nil => false
  | .cons first rest => first.rebuilt || rest.rebuilt

end

mutual

-- The errors of fmt.Errorf with several causes whose text is shown although
-- there are PgErrors below: none of their causes is rebuilt.
def Err.exposures : Err → Nat
  | .leaf _ => 0
  | .wrap _ cause => if cause.rebuilt then cause.exposures else 0
  | .multi (some _) causes =>
    if causes.rebuilt then causes.exposures else if causes.asPg.isSome then 1 else 0
  | .multi none causes => causes.exposures
  | .persistence _ _ _ => 0
  | .neutral _ _ => 0
  | .pg _ => 0

def Errs.exposures : Errs → Nat
  | .nil => 0
  | .cons first rest => first.exposures + rest.exposures

end

section

variable (native : PgError → PgError) (text : Bytes → Bytes)

mutual

theorem edit_as : ∀ err : Err, (err.edit native text).asPg = err.asPg.map native
  | .leaf _ => rfl
  | .wrap _ cause => edit_as cause
  | .multi _ causes => edit_all_as causes
  | .persistence _ _ cause => edit_as cause
  | .neutral _ cause => edit_as cause
  | .pg _ => rfl

theorem edit_all_as : ∀ errs : Errs, (errs.edit native text).asPg = errs.asPg.map native
  | .nil => rfl
  | .cons first rest => by
      rw [Errs.edit, Errs.asPg, Errs.asPg, edit_as first, edit_all_as rest]
      cases first.asPg <;> rfl

end

theorem edit_found (err : Err) : (err.edit native text).asPg.isSome = err.asPg.isSome := by
  rw [edit_as, Option.isSome_map]

theorem edit_all_found (errs : Errs) : (errs.edit native text).asPg.isSome = errs.asPg.isSome := by
  rw [edit_all_as, Option.isSome_map]

theorem wrapper_edit_edit (other : Bytes → Bytes) (quotes : Bool) (wrapper : Wrapper) :
    (wrapper.edit text quotes).edit other quotes = wrapper.edit (other ∘ text) quotes := by
  cases wrapper with
  | formatted own =>
    cases quotes <;> rfl
  | safeCause code => rfl

mutual

theorem edit_edit (again : PgError → PgError) (other : Bytes → Bytes) : ∀ err : Err,
    (err.edit native text).edit again other = err.edit (again ∘ native) (other ∘ text)
  | .leaf _ => rfl
  | .wrap wrapper cause => by
      rw [Err.edit, Err.edit, Err.edit, edit_found, edit_edit again other cause, wrapper_edit_edit]
  | .multi own causes => by
      rw [Err.edit, Err.edit, Err.edit, edit_all_found, edit_all_edit again other causes]
      split
      · rw [Option.map_map]
      · rfl
  | .persistence _ _ cause => by
      rw [Err.edit, Err.edit, Err.edit, edit_edit again other cause]
  | .neutral _ cause => by
      rw [Err.edit, Err.edit, Err.edit, edit_edit again other cause]
  | .pg _ => rfl

theorem edit_all_edit (again : PgError → PgError) (other : Bytes → Bytes) : ∀ errs : Errs,
    (errs.edit native text).edit again other = errs.edit (again ∘ native) (other ∘ text)
  | .nil => rfl
  | .cons first rest => by
      rw [Errs.edit, Errs.edit, Errs.edit, edit_edit again other first, edit_all_edit again other rest]

end

theorem edit_neutral (keeps : ∀ own, (native own).neutral = own.neutral) (err : Err) :
    (err.edit native text).asPg.bind PgError.neutral = err.asPg.bind PgError.neutral := by
  rw [edit_as]
  cases err.asPg with
  | none => rfl
  | some own => exact keeps own

end

def Errs.allNil : Errs → Bool
  | .nil => true
  | .cons first rest => first.isNil && rest.allNil

theorem join_nil (errs : Errs) : (joinErrors errs).isNil = errs.allNil := by
  have all : ∀ errs : Errs, (errs.present = .nil ↔ errs.allNil = true) := by
    intro errs
    induction errs using Errs.rec (motive_1 := fun _ => True) with
    | leaf | wrap | multi | persistence | neutral | pg => trivial
    | nil => simp [Errs.present, Errs.allNil]
    | cons first rest _ ih =>
      rw [Errs.present, Errs.allNil]
      cases first.isNil with
      | true => simpa using ih
      | false => simp
  rw [joinErrors]
  split
  · rename_i empty
    rw [(all errs).mp empty]
    rfl
  · rename_i first rest shape
    cases nils : errs.allNil with
    | false => rfl
    | true =>
      rw [(all errs).mpr nils] at shape
      cases shape

structure Alike (left right : Err × Bool) : Prop where
  changed : left.2 = right.2
  label : left.1.label = right.1.label
  isNil : left.1.isNil = right.1.isNil

theorem native_alike {left right : Err} (same : left.asPg.bind PgError.neutral = right.asPg.bind PgError.neutral)
    (label : left.label = right.label) (isNil : left.isNil = right.isNil) :
    Alike (classifyNative left) (classifyNative right) := by
  rcases native_cases left with ⟨none, kept⟩ | ⟨kind, code, some, changed⟩
  · rcases native_cases right with ⟨_, alsoKept⟩ | ⟨kind, code, some, _⟩
    · rw [kept, alsoKept]
      exact ⟨rfl, label, isNil⟩
    · rw [same, some] at none
      cases none
  · rcases native_cases right with ⟨none, _⟩ | ⟨_, _, alsoSome, alsoChanged⟩
    · rw [same, none] at some
      cases some
    · rw [same, alsoSome] at some
      cases some
      rw [changed, alsoChanged]
      exact ⟨rfl, rfl, rfl⟩

theorem join_label (errs : Errs) : (joinErrors errs).label = none := by
  rw [joinErrors]
  split <;> rfl

section

variable (native : PgError → PgError) (text : Bytes → Bytes)

mutual

theorem edit_alike (keeps : ∀ own, (native own).neutral = own.neutral) :
    ∀ err : Err, Alike (classify (err.edit native text)) (classify err)
  | .leaf kind => ⟨rfl, rfl, rfl⟩
  | .pg own => native_alike (edit_neutral native text keeps (.pg own)) rfl rfl
  | .neutral _ _ => ⟨rfl, rfl, rfl⟩
  | .persistence operation table cause => by
      have inner := edit_alike keeps cause
      rw [Err.edit, classify_persistence, classify_persistence, inner.changed]
      split <;> exact ⟨rfl, rfl, rfl⟩
  | .multi own causes => by
      have inner := edit_all_alike keeps causes
      rw [Err.edit, classify_multi, classify_multi, inner.1]
      split
      · exact ⟨rfl, by rw [join_label, join_label], by rw [join_nil, join_nil, inner.2]⟩
      · exact ⟨rfl, rfl, rfl⟩
  | .wrap wrapper cause => by
      have inner := edit_alike keeps cause
      have whole := edit_neutral native text keeps (.wrap wrapper cause)
      rw [Err.edit] at whole ⊢
      rw [classify_wrap, classify_wrap, inner.changed]
      split
      · exact ⟨rfl, inner.label, inner.isNil⟩
      · exact native_alike whole rfl rfl

theorem edit_all_alike (keeps : ∀ own, (native own).neutral = own.neutral) : ∀ errs : Errs,
    (classifyAll (errs.edit native text)).2 = (classifyAll errs).2 ∧
    (classifyAll (errs.edit native text)).1.allNil = (classifyAll errs).1.allNil
  | .nil => ⟨rfl, rfl⟩
  | .cons first rest => by
      have own := edit_alike keeps first
      have others := edit_all_alike keeps rest
      simp only [Errs.edit, classifyAll, Errs.allNil, own.changed, own.isNil, others.1, others.2, and_self]

end

end

mutual

theorem known_found : ∀ (err : Err) (native : PgError), err.known = true → err.asPg = some native →
    native.code ∈ knownCodes
  | .leaf _, _, _, found => by cases found
  | .wrap _ cause, native, known, found => known_found cause native known found
  | .multi _ causes, native, known, found => known_all_found causes native known found
  | .persistence _ _ cause, native, known, found => known_found cause native known found
  | .neutral _ cause, native, known, found => known_found cause native known found
  | .pg own, native, known, found => by
      cases found
      exact of_decide_eq_true known

theorem known_all_found : ∀ (errs : Errs) (native : PgError), errs.known = true → errs.asPg = some native →
    native.code ∈ knownCodes
  | .nil, _, _, found => by cases found
  | .cons first rest, native, known, found => by
      obtain ⟨own, others⟩ := Bool.and_eq_true_iff.mp known
      rw [Errs.asPg, Option.or_eq_some_iff] at found
      rcases found with here | ⟨_, later⟩
      · exact known_found first native own here
      · exact known_all_found rest native others later

end

mutual

theorem rebuilt_found : ∀ err : Err, err.rebuilt = true → err.asPg.isSome = true
  | .leaf _, rebuilt => by cases rebuilt
  | .wrap _ _, rebuilt => rebuilt
  | .multi _ causes, rebuilt => rebuilt_all_found causes rebuilt
  | .persistence _ _ cause, rebuilt => rebuilt_found cause rebuilt
  | .neutral _ _, rebuilt => by cases rebuilt
  | .pg _, _ => rfl

theorem rebuilt_all_found : ∀ errs : Errs, errs.rebuilt = true → errs.asPg.isSome = true
  | .nil, rebuilt => by cases rebuilt
  | .cons first rest, rebuilt => by
      rw [Errs.asPg, Option.isSome_or, Bool.or_eq_true]
      rcases Bool.or_eq_true_iff.mp rebuilt with own | later
      · exact .inl (rebuilt_found first own)
      · exact .inr (rebuilt_all_found rest later)

end

theorem native_known (known : err.known = true) : (classifyNative err).2 = err.asPg.isSome := by
  cases found : err.asPg with
  | none =>
    rcases native_cases err with ⟨_, kept⟩ | ⟨_, _, some, _⟩
    · rw [kept]
      rfl
    · rw [found] at some
      cases some
  | some native =>
    obtain ⟨kind, switched⟩ := neutral_known (known_found err native known found)
    rcases native_cases err with ⟨none, _⟩ | ⟨_, _, _, changed⟩
    · rw [found, Option.bind_some, switched] at none
      cases none
    · rw [changed]
      rfl

mutual

theorem classify_rebuilt : ∀ err : Err, err.known = true → (classify err).2 = err.rebuilt
  | .leaf kind, known => native_known known
  | .pg native, known => native_known known
  | .neutral _ _, _ => rfl
  | .persistence operation table cause, known => by
      have inner := classify_rebuilt cause known
      rw [classify_persistence, inner, Err.rebuilt]
      cases cause.rebuilt <;> rfl
  | .multi own causes, known => by
      have inner := classify_all_rebuilt causes known
      rw [classify_multi, inner, Err.rebuilt]
      cases causes.rebuilt <;> rfl
  | .wrap wrapper cause, known => by
      have inner := classify_rebuilt cause known
      rw [classify_wrap, inner]
      cases rebuilt : cause.rebuilt with
      | true => exact (rebuilt_found cause rebuilt).symm
      | false => exact native_known known

theorem classify_all_rebuilt : ∀ errs : Errs, errs.known = true → (classifyAll errs).2 = errs.rebuilt
  | .nil, _ => rfl
  | .cons first rest, known => by
      obtain ⟨own, others⟩ := Bool.and_eq_true_iff.mp known
      simp only [classifyAll, Errs.rebuilt, classify_rebuilt first own, classify_all_rebuilt rest others]

end

section

variable (nativeText : PgError → Bytes)

theorem label_text {err : Err} {label : Bytes} (labelled : err.label = some label) : err.text nativeText = label := by
  cases err with
  | neutral kind cause =>
    cases labelled
    rfl
  | _ => cases labelled

theorem join_text (errs : Errs) :
    (joinErrors errs).text nativeText = join (ascii "\n") (errs.present.texts nativeText) := by
  rw [joinErrors]
  split
  · rename_i shape
    rw [shape]
    rfl
  · rename_i first rest shape
    rw [shape]
    rfl

theorem native_text {err : Err} (known : err.known = true) (found : err.asPg.isSome = true) :
    ∃ label, (classifyNative err).1.label = some label ∧ (classifyNative err).1.text nativeText = label := by
  have changed := native_known known
  rw [found] at changed
  rcases native_cases err with ⟨_, kept⟩ | ⟨kind, _, _, result⟩
  · rw [kept] at changed
    cases changed
  · rw [result]
    exact ⟨kind.text, rfl, rfl⟩

variable (native : PgError → PgError) (text : Bytes → Bytes)

theorem edit_label (err : Err) : (err.edit native text).label = err.label := by
  cases err <;> rfl

theorem wrapper_edit_plain (wrapper : Wrapper) : (wrapper.edit text false).text = wrapper.text := by
  cases wrapper <;> rfl

theorem native_text_alike {left right : Err} (alike : Alike (classifyNative left) (classifyNative right))
    (known : right.known = true) (found : right.asPg.isSome = true) :
    (classifyNative left).1.text nativeText = (classifyNative right).1.text nativeText := by
  obtain ⟨label, labelled, shown⟩ := native_text nativeText known found
  rw [shown]
  exact label_text _ (alike.label.trans labelled)

mutual

theorem edit_text (keeps : ∀ own, (native own).neutral = own.neutral) : ∀ err : Err, err.known = true →
    err.exposures = 0 → (classify (err.edit native text)).1.text nativeText = (classify err).1.text nativeText
  | .leaf _, _, _ => rfl
  | .pg own, known, _ => native_text_alike _ (edit_alike native text keeps (.pg own)) known rfl
  | .neutral _ _, _, _ => rfl
  | .persistence operation table cause, known, _ => by
      have inner := edit_alike native text keeps cause
      rw [Err.edit, classify_persistence, classify_persistence, inner.changed]
      split
      · rw [Err.text, Err.text, inner.label]
      · rw [Err.text, Err.text, edit_label]
  | .multi own causes, known, hidden => by
      have alike := (edit_all_alike native text keeps causes).1
      rw [Err.edit, classify_multi, classify_multi, alike]
      cases changed : (classifyAll causes).2 with
      | true =>
        have quiet : causes.exposures = 0 := by
          rw [classify_all_rebuilt causes known] at changed
          cases own with
          | none => exact hidden
          | some shown =>
            rw [Err.exposures, if_pos changed] at hidden
            exact hidden
        rw [if_pos rfl, if_pos rfl, join_text, join_text, (edit_all_text keeps causes known quiet).2]
      | false =>
        rw [if_neg Bool.false_ne_true, if_neg Bool.false_ne_true]
        cases own with
        | none =>
          have texts := (edit_all_text keeps causes known hidden).1
          rw [classify_all_unchanged causes changed, classify_all_unchanged _ (alike.trans changed)] at texts
          rw [Option.map_none, ite_self, Err.text, Err.text, texts]
        | some shown =>
          rw [classify_all_rebuilt causes known] at changed
          rw [Err.exposures, if_neg (by rw [changed]; exact Bool.false_ne_true)] at hidden
          cases found : causes.asPg.isSome with
          | true =>
            rw [found, if_pos rfl] at hidden
            cases hidden
          | false => rfl
  | .wrap wrapper cause, known, hidden => by
      have inner := edit_alike native text keeps cause
      have whole := edit_neutral native text keeps (.wrap wrapper cause)
      rw [Err.edit] at whole ⊢
      rw [classify_wrap, classify_wrap, inner.changed]
      split
      · rename_i changed
        rw [classify_rebuilt cause known] at changed
        rw [Err.exposures, if_pos changed] at hidden
        exact edit_text keeps cause known hidden
      · cases found : cause.asPg.isSome with
        | true =>
          rw [found] at whole
          exact native_text_alike _ (native_alike whole rfl rfl) known found
        | false =>
          rw [found] at whole
          have kept := native_unchanged ((native_known known).trans found)
          have alike := native_alike whole rfl rfl
          rw [kept, native_unchanged (alike.changed.trans ((native_known known).trans found))]
          exact wrapper_edit_plain text wrapper

theorem edit_all_text (keeps : ∀ own, (native own).neutral = own.neutral) : ∀ errs : Errs, errs.known = true →
    errs.exposures = 0 →
    (classifyAll (errs.edit native text)).1.texts nativeText = (classifyAll errs).1.texts nativeText ∧
    (classifyAll (errs.edit native text)).1.present.texts nativeText = (classifyAll errs).1.present.texts nativeText
  | .nil, _, _ => ⟨rfl, rfl⟩
  | .cons first rest, known, hidden => by
      obtain ⟨own, others⟩ := Bool.and_eq_true_iff.mp known
      have parts := Nat.add_eq_zero_iff.mp hidden
      have here := edit_text keeps first own parts.1
      have later := edit_all_text keeps rest others parts.2
      have nils := (edit_alike native text keeps first).isNil
      simp only [Errs.edit, classifyAll, Errs.texts, Errs.present, here, later.1, nils, true_and]
      split
      · exact later.2
      · simp only [Errs.texts, here, later.2]

end

def extend (text : Bytes) : Bytes := text ++ [0x2A]

theorem join_length (separator : UInt8) (parts : List Bytes) :
    (join [separator] parts).length = (parts.map List.length).sum + (parts.length - 1) := by
  induction parts with
  | nil => rfl
  | cons first rest ih =>
    rw [join_cons, List.length_append, List.map_cons, List.sum_cons, List.length_cons]
    by_cases last : rest = []
    · subst last
      rfl
    · have some := List.length_pos_iff.mpr last
      rw [if_neg last, List.length_append, List.length_singleton, ih]
      omega

theorem present_sum (errs : Errs) :
    ((errs.present.texts nativeText).map List.length).sum = ((errs.texts nativeText).map List.length).sum := by
  match errs with
  | .nil => rfl
  | .cons first rest =>
    have others := present_sum rest
    rw [Errs.present, Errs.texts, List.map_cons, List.sum_cons, ← others]
    split
    · rename_i empty
      cases first with
      | leaf kind =>
        cases kind with
        | nil => exact (Nat.zero_add _).symm
        | _ => cases empty
      | _ => cases empty
    · rfl

theorem hidden_length {err : Err} (known : err.known = true) (hidden : err.exposures = 0) :
    ((classify (err.edit id extend)).1.text nativeText).length =
      ((classify err).1.text nativeText).length + err.exposures := by
  rw [edit_text nativeText id extend (fun _ => rfl) err known hidden, hidden, Nat.add_zero]

mutual

theorem extend_length : ∀ err : Err, err.known = true →
    ((classify (err.edit id extend)).1.text nativeText).length =
      ((classify err).1.text nativeText).length + err.exposures
  | .leaf _, known => hidden_length _ known rfl
  | .pg _, known => hidden_length _ known rfl
  | .neutral _ _, known => hidden_length _ known rfl
  | .persistence _ _ _, known => hidden_length _ known rfl
  | .multi own causes, known => by
      have alike := (edit_all_alike id extend (fun _ => rfl) causes).1
      obtain ⟨sum, count, present⟩ := extend_all_length causes known
      have rebuilt := classify_all_rebuilt causes known
      rw [Err.edit, classify_multi, classify_multi, alike]
      cases changed : (classifyAll causes).2 with
      | true =>
        have all : (Err.multi own causes).exposures = causes.exposures := by
          cases own with
          | none => rfl
          | some shown => rw [Err.exposures, if_pos (rebuilt.symm.trans changed)]
        rw [if_pos rfl, if_pos rfl, join_text, join_text, all, show ascii "\n" = [0x0A] from rfl, join_length,
          join_length, present_sum, present_sum, sum, present]
        omega
      | false =>
        rw [if_neg Bool.false_ne_true, if_neg Bool.false_ne_true]
        cases own with
        | none =>
          rw [classify_all_unchanged causes changed, classify_all_unchanged _ (alike.trans changed)] at sum count
          rw [Option.map_none, ite_self, Err.text, Err.text, Err.exposures, show ascii "\n" = [0x0A] from rfl,
            join_length, join_length, sum, count]
          omega
        | some shown =>
          rw [Err.exposures, rebuilt.symm.trans changed]
          cases causes.asPg.isSome with
          | true => exact List.length_append
          | false => rfl
  | .wrap wrapper cause, known => by
      cases rebuilt : cause.rebuilt with
      | true =>
        have changed := (classify_rebuilt cause known).trans rebuilt
        have alike := (edit_alike id extend (fun _ => rfl) cause).changed.trans changed
        rw [Err.edit, classify_wrap, classify_wrap, if_pos alike, if_pos changed, Err.exposures, if_pos rebuilt]
        exact extend_length cause known
      | false =>
        refine hidden_length _ known ?_
        rw [Err.exposures, if_neg (by rw [rebuilt]; exact Bool.false_ne_true)]

theorem extend_all_length : ∀ errs : Errs, errs.known = true →
    (((classifyAll (errs.edit id extend)).1.texts nativeText).map List.length).sum =
      (((classifyAll errs).1.texts nativeText).map List.length).sum + errs.exposures ∧
    ((classifyAll (errs.edit id extend)).1.texts nativeText).length =
      ((classifyAll errs).1.texts nativeText).length ∧
    ((classifyAll (errs.edit id extend)).1.present.texts nativeText).length =
      ((classifyAll errs).1.present.texts nativeText).length
  | .nil, _ => ⟨rfl, rfl, rfl⟩
  | .cons first rest, known => by
      obtain ⟨own, others⟩ := Bool.and_eq_true_iff.mp known
      have here := extend_length first own
      obtain ⟨sum, count, present⟩ := extend_all_length rest others
      have nils := (edit_alike id extend (fun _ => rfl) first).isNil
      simp only [Errs.edit, classifyAll, Errs.texts, Errs.present, List.map_cons, List.sum_cons, here, sum,
        Errs.exposures, List.length_cons, count, nils]
      refine ⟨by omega, trivial, ?_⟩
      split
      · exact present
      · rw [Errs.texts, Errs.texts, List.length_cons, List.length_cons, present]

end

end

mutual

theorem edit_context (native : PgError → PgError) (text : Bytes → Bytes) : ∀ err : Err,
    (err.edit native text).isContext = err.isContext
  | .leaf _ => rfl
  | .wrap _ cause => edit_context native text cause
  | .multi _ causes => edit_all_context native text causes
  | .persistence _ _ cause => edit_context native text cause
  | .neutral _ cause => edit_context native text cause
  | .pg _ => rfl

theorem edit_all_context (native : PgError → PgError) (text : Bytes → Bytes) : ∀ errs : Errs,
    (errs.edit native text).isContext = errs.isContext
  | .nil => rfl
  | .cons first rest => by
      rw [Errs.edit, Errs.isContext, Errs.isContext, edit_context native text first, edit_all_context native text rest]

end

mutual

theorem edit_known (native : PgError → PgError) (text : Bytes → Bytes) (keeps : ∀ own, (native own).code = own.code) :
    ∀ err : Err, (err.edit native text).known = err.known
  | .leaf _ => rfl
  | .wrap _ cause => edit_known native text keeps cause
  | .multi _ causes => edit_all_known text keeps causes
  | .persistence _ _ cause => edit_known native text keeps cause
  | .neutral _ cause => edit_known native text keeps cause
  | .pg own => by rw [Err.edit, Err.known, Err.known, keeps own]

theorem edit_all_known {native : PgError → PgError} (text : Bytes → Bytes)
    (keeps : ∀ own, (native own).code = own.code) : ∀ errs : Errs, (errs.edit native text).known = errs.known
  | .nil => rfl
  | .cons first rest => by
      rw [Errs.edit, Errs.known, Errs.known, edit_known native text keeps first, edit_all_known text keeps rest]

end

mutual

theorem edit_rebuilt (native : PgError → PgError) (text : Bytes → Bytes) : ∀ err : Err,
    (err.edit native text).rebuilt = err.rebuilt
  | .leaf _ => rfl
  | .wrap _ cause => edit_found native text cause
  | .multi _ causes => edit_all_rebuilt native text causes
  | .persistence _ _ cause => edit_rebuilt native text cause
  | .neutral _ _ => rfl
  | .pg _ => rfl

theorem edit_all_rebuilt (native : PgError → PgError) (text : Bytes → Bytes) : ∀ errs : Errs,
    (errs.edit native text).rebuilt = errs.rebuilt
  | .nil => rfl
  | .cons first rest => by
      rw [Errs.edit, Errs.rebuilt, Errs.rebuilt, edit_rebuilt native text first, edit_all_rebuilt native text rest]

end

mutual

theorem edit_exposures (native : PgError → PgError) (text : Bytes → Bytes) : ∀ err : Err,
    (err.edit native text).exposures = err.exposures
  | .leaf _ => rfl
  | .wrap _ cause => by
      rw [Err.edit, Err.exposures, Err.exposures, edit_rebuilt, edit_exposures native text cause]
  | .multi none causes => by
      rw [Err.edit, Option.map_none, ite_self, Err.exposures, Err.exposures, edit_all_exposures native text causes]
  | .multi (some own) causes => by
      have shown : (if causes.asPg.isSome = true then (some own).map text else some own) =
          some (if causes.asPg.isSome = true then text own else own) := by
        split <;> rfl
      rw [Err.edit, shown, Err.exposures, Err.exposures, edit_all_rebuilt, edit_all_found,
        edit_all_exposures native text causes]
  | .persistence _ _ _ => rfl
  | .neutral _ _ => rfl
  | .pg _ => rfl

theorem edit_all_exposures (native : PgError → PgError) (text : Bytes → Bytes) : ∀ errs : Errs,
    (errs.edit native text).exposures = errs.exposures
  | .nil => rfl
  | .cons first rest => by
      rw [Errs.edit, Errs.exposures, Errs.exposures, edit_exposures native text first,
        edit_all_exposures native text rest]

end

theorem redact_text (nativeText : PgError → Bytes) (plain : err.isContext = false) (known : err.known = true)
    (hidden : err.exposures = 0) :
    (classifyError err.redact).text nativeText = (classifyError err).text nativeText := by
  have redacted : err.redact.isContext = false := (edit_context _ _ err).trans plain
  rw [classify_error_cases plain, classify_error_cases redacted]
  exact edit_text nativeText PgError.redact (fun _ => []) (fun _ => rfl) err known hidden

theorem redacted_alike {left right : Err} (same : left.redact = right.redact) :
    left.isContext = right.isContext ∧ left.known = right.known ∧ left.exposures = right.exposures := by
  refine ⟨?_, ?_, ?_⟩
  · rw [← edit_context PgError.redact (fun _ => []) left, ← edit_context PgError.redact (fun _ => []) right]
    exact congrArg Err.isContext same
  · rw [← edit_known PgError.redact (fun _ => []) (fun _ => rfl) left,
      ← edit_known PgError.redact (fun _ => []) (fun _ => rfl) right]
    exact congrArg Err.known same
  · rw [← edit_exposures PgError.redact (fun _ => []) left, ← edit_exposures PgError.redact (fun _ => []) right]
    exact congrArg Err.exposures same

theorem undisclosed_iff (nativeText : PgError → Bytes) (plain : err.isContext = false) (known : err.known = true) :
    (∀ other : Err, other.redact = err.redact →
      (classifyError other).text nativeText = (classifyError err).text nativeText) ↔ err.exposures = 0 := by
  constructor
  · intro equal
    have longer := equal (err.edit id extend) (edit_edit id extend PgError.redact (fun _ => []) err)
    rw [classify_error_cases plain, classify_error_cases ((edit_context id extend err).trans plain)] at longer
    have length := extend_length nativeText err known
    rw [longer] at length
    omega
  · intro hidden other same
    obtain ⟨context, codes, exposed⟩ := redacted_alike same
    rw [← redact_text nativeText (context.trans plain) (codes.trans known) (exposed.trans hidden), same,
      redact_text nativeText plain known hidden]

theorem classify_error_settled (err : Err) : classifyError (classifyError err) = classifyError err := by
  cases context : err.isContext with
  | true =>
    have same : classifyError err = err := by
      rw [classifyError, context, Bool.or_true, if_pos rfl]
    rw [same, same]
  | false =>
    rw [classify_error_cases context]
    have settled : (classify (classify err).1).2 = false := by
      cases changed : (classify err).2 with
      | true => exact classify_settled err changed
      | false =>
        rw [classify_unchanged err changed]
        exact changed
    rw [classifyError]
    split
    · rfl
    split
    · rfl
    rename_i result
    rw [result] at settled
    cases settled

theorem classification_safe_iff (nativeText : PgError → Bytes) (err : Err) :
    classifyError (classifyError err) = classifyError err ∧
    (classifyError err).asPg = err.asPg ∧
    (∀ operation table cause, err = .persistence operation table cause →
      ∃ classified, classifyError err = .persistence operation table classified) ∧
    (err.isContext = true → classifyError err = err) ∧
    (err.isContext = false → err.known = true →
      ((∀ other : Err, other.redact = err.redact →
        (classifyError other).text nativeText = (classifyError err).text nativeText) ↔ err.exposures = 0)) := by
  have unchanged : err.isContext = true → classifyError err = err := by
    intro context
    rw [classifyError, context, Bool.or_true, if_pos rfl]
  refine ⟨classify_error_settled err, ?_, ?_, unchanged, undisclosed_iff nativeText⟩
  · cases context : err.isContext with
    | true => rw [unchanged context]
    | false => rw [classify_error_cases context, classify_as err]
  · rintro operation table cause rfl
    cases context : (Err.persistence operation table cause).isContext with
    | true => exact ⟨cause, unchanged context⟩
    | false =>
      rw [classify_error_cases context, classify_persistence]
      split <;> exact ⟨_, rfl⟩

-- An error of fmt.Errorf with two causes quotes the message; the PgError is
-- below a ConstraintError, so nothing is rebuilt and the text stays.
theorem quoting_text_shown :
    let native (message : String) : PgError := ⟨1, codeUnique, ascii message, [], [], ascii "users_email_key"⟩
    let tree (message : String) : Err :=
      .multi (some (ascii "save " ++ ascii message))
        (.cons (.leaf (.plain (ascii "save failed")))
          (.cons (.neutral (.constraint .unique (ascii "users_email_key") codeUnique) (.pg (native message))) .nil))
    (tree "ada").isContext = false ∧ (tree "ada").known = true ∧ (tree "ada").redact = (tree "bob").redact ∧
      (classifyError (tree "ada")).text (fun _ => []) = ascii "save ada" ∧
      (classifyError (tree "bob")).text (fun _ => []) = ascii "save bob" :=
  ⟨rfl, rfl, rfl, rfl, rfl⟩

end Goforge.Orm.Postgres
