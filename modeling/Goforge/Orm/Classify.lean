import Goforge.Lib.GoString

set_option autoImplicit false

namespace Goforge.Orm.Postgres

open GoString

-- A *pgconn.PgError. The address tells it from others with the same content.
structure PgError where
  address : Nat
  code : Bytes
  message : Bytes
  detail : Bytes
  columnName : Bytes
  constraintName : Bytes

inductive Operation where
  | select
  | insert
  | update
  | delete
  | other (text : Bytes)

def Operation.text : Operation → Bytes
  | .select => ascii "select"
  | .insert => ascii "insert"
  | .update => ascii "update"
  | .delete => ascii "delete"
  | .other text => text

inductive ConstraintKind where
  | unique
  | foreignKey
  | notNull
  | check
  | other (text : Bytes)

def ConstraintKind.text : ConstraintKind → Bytes
  | .unique => ascii "unique"
  | .foreignKey => ascii "foreign_key"
  | .notNull => ascii "not_null"
  | .check => ascii "check"
  | .other text => text

inductive TransientKind where
  | serialization
  | deadlock
  | other (text : Bytes)

def TransientKind.text : TransientKind → Bytes
  | .serialization => ascii "serialization"
  | .deadlock => ascii "deadlock"
  | .other text => text

-- An orm.ConstraintError or orm.TransientError, without its cause.
inductive Neutral where
  | constraint (kind : ConstraintKind) (name code : Bytes)
  | transient (kind : TransientKind) (code : Bytes)

inductive Leaf where
  | nil
  | plain (text : Bytes)
  | canceled
  | deadlineExceeded

-- An error with one cause: of fmt.Errorf, with the text it was given, or a safeCause.
inductive Wrapper where
  | formatted (text : Bytes)
  | safeCause (code : Bytes)

mutual

-- An error with several causes has a text of its own unless errors.Join made it.
inductive Err where
  | leaf (kind : Leaf)
  | wrap (wrapper : Wrapper) (cause : Err)
  | multi (text : Option Bytes) (causes : Errs)
  | persistence (operation : Operation) (table : Bytes) (cause : Err)
  | neutral (kind : Neutral) (cause : Err)
  | pg (native : PgError)

inductive Errs where
  | nil
  | cons (first : Err) (rest : Errs)

end

def Err.isNil : Err → Bool
  | .leaf .nil => true
  | _ => false

mutual

-- errors.As for a *pgconn.PgError: the first in depth-first order.
def Err.asPg : Err → Option PgError
  | .leaf _ => none
  | .wrap _ cause => cause.asPg
  | .multi _ causes => causes.asPg
  | .persistence _ _ cause => cause.asPg
  | .neutral _ cause => cause.asPg
  | .pg native => some native

def Errs.asPg : Errs → Option PgError
  | .nil => none
  | .cons first rest => first.asPg.or rest.asPg

end

def Leaf.isContext : Leaf → Bool
  | .canceled => true
  | .deadlineExceeded => true
  | _ => false

mutual

-- errors.Is for context.Canceled or context.DeadlineExceeded. The Is methods of
-- the ORM errors know other targets only.
def Err.isContext : Err → Bool
  | .leaf kind => kind.isContext
  | .wrap _ cause => cause.isContext
  | .multi _ causes => causes.isContext
  | .persistence _ _ cause => cause.isContext
  | .neutral _ cause => cause.isContext
  | .pg _ => false

def Errs.isContext : Errs → Bool
  | .nil => false
  | .cons first rest => first.isContext || rest.isContext

end

def Errs.present : Errs → Errs
  | .nil => .nil
  | .cons first rest => if first.isNil then rest.present else .cons first rest.present

-- errors.Join
def joinErrors (causes : Errs) : Err :=
  match causes.present with
  | .nil => .leaf .nil
  | .cons first rest => .multi none (.cons first rest)

def codeUnique : Bytes := ascii "23505"

def codeForeignKey : Bytes := ascii "23503"

def codeNotNull : Bytes := ascii "23502"

def codeCheck : Bytes := ascii "23514"

def codeSerialization : Bytes := ascii "40001"

def codeDeadlock : Bytes := ascii "40P01"

def constraintError (kind : ConstraintKind) (name : Bytes) (cause : Err) : Err :=
  .neutral (.constraint kind name (match cause.asPg with
    | some native => native.code
    | none => [])) cause

-- The switch over the code; there is no result for other codes.
def PgError.classified (native : PgError) (cause : Err) : Option Err :=
  if native.code = codeUnique then some (constraintError .unique native.constraintName cause)
  else if native.code = codeForeignKey then some (constraintError .foreignKey native.constraintName cause)
  else if native.code = codeNotNull then
    some (constraintError .notNull
      (if native.constraintName = [] then native.columnName else native.constraintName) cause)
  else if native.code = codeCheck then some (constraintError .check native.constraintName cause)
  else if native.code = codeSerialization then some (.neutral (.transient .serialization native.code) cause)
  else if native.code = codeDeadlock then some (.neutral (.transient .deadlock native.code) cause)
  else none

-- The end of classify, from the call of errors.As on.
def classifyNative (err : Err) : Err × Bool :=
  match err.asPg with
  | none => (err, false)
  | some native =>
    match native.classified (.wrap (.safeCause native.code) err) with
    | some classified => (classified, true)
    | none => (err, false)

mutual

def classify : Err → Err × Bool
  | .persistence operation table cause =>
    match classify cause with
    | (_, false) => (.persistence operation table cause, false)
    | (classified, true) => (.persistence operation table classified, true)
  | .neutral kind cause => (.neutral kind cause, false)
  | .multi text causes =>
    match classifyAll causes with
    | (_, false) => (.multi text causes, false)
    | (classified, true) => (joinErrors classified, true)
  | .wrap wrapper cause =>
    match classify cause with
    | (classified, true) => (classified, true)
    | (_, false) => classifyNative (.wrap wrapper cause)
  | .leaf kind => classifyNative (.leaf kind)
  | .pg native => classifyNative (.pg native)

def classifyAll : Errs → Errs × Bool
  | .nil => (.nil, false)
  | .cons first rest =>
    let (one, changed) := classify first
    let (others, alsoChanged) := classifyAll rest
    (.cons one others, changed || alsoChanged)

end

-- Classify, which the package exports.
def classifyError (err : Err) : Err :=
  if err.isNil || err.isContext then err
  else
    match classify err with
    | (_, false) => err
    | (classified, true) => classified

def Neutral.text : Neutral → Bytes
  | .constraint kind name code =>
    if name = [] then
      if code ≠ [] then ascii "orm: " ++ kind.text ++ ascii " constraint violation (" ++ code ++ ascii ")"
      else ascii "orm: " ++ kind.text ++ ascii " constraint violation"
    else if code ≠ [] then
      ascii "orm: " ++ kind.text ++ ascii " constraint " ++ name ++ ascii " violated (" ++ code ++ ascii ")"
    else ascii "orm: " ++ kind.text ++ ascii " constraint " ++ name ++ ascii " violated"
  | .transient kind code =>
    if code ≠ [] then ascii "orm: transient " ++ kind.text ++ ascii " failure (" ++ code ++ ascii ")"
    else ascii "orm: transient " ++ kind.text ++ ascii " failure"

-- The text of a ConstraintError or TransientError, which a PersistenceError repeats.
def Err.label : Err → Option Bytes
  | .neutral kind _ => some kind.text
  | _ => none

def Leaf.text : Leaf → Bytes
  | .nil => []
  | .plain text => text
  | .canceled => ascii "context canceled"
  | .deadlineExceeded => ascii "context deadline exceeded"

def Wrapper.text : Wrapper → Bytes
  | .formatted text => text
  | .safeCause code => ascii "postgres: SQLSTATE " ++ code

section

-- The text of the driver's own error.
variable (nativeText : PgError → Bytes)

mutual

def Err.text : Err → Bytes
  | .leaf kind => kind.text
  | .wrap wrapper _ => wrapper.text
  | .multi (some text) _ => text
  | .multi none causes => join (ascii "\n") causes.texts
  | .persistence operation table cause =>
    match cause.label with
    | some label => ascii "orm: " ++ operation.text ++ ascii " " ++ table ++ ascii " failed: " ++ label
    | none => ascii "orm: " ++ operation.text ++ ascii " " ++ table ++ ascii " failed"
  | .neutral kind _ => kind.text
  | .pg native => nativeText native

def Errs.texts : Errs → List Bytes
  | .nil => []
  | .cons first rest => first.text :: rest.texts

end

end

end Goforge.Orm.Postgres
