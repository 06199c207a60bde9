import Mathlib.Data.List.DropRight
import Goforge.Lib.Strconv

set_option autoImplicit false

namespace QuotedText

open GoString

-- Where a reader stands in a header value.
inductive Mode where
  | outside
  | inside
  | escaped
deriving DecidableEq, Repr

def Mode.next : Mode → UInt8 → Mode
  | .outside, b => if b = dquote then .inside else .outside
  | .inside, b => if b = backslash then .escaped else if b = dquote then .outside else .inside
  | .escaped, _ => .inside

def scan (text : Bytes) : Mode := text.foldl Mode.next .outside

theorem scan_snoc (text : Bytes) (b : UInt8) : scan (text ++ [b]) = (scan text).next b := by
  rw [scan, List.foldl_append]
  rfl

def Solid (separator : UInt8) (text : Bytes) : Prop :=
  ∀ front back, text = front ++ separator :: back → scan front ≠ .outside

structure Divided (separator : UInt8) (value : Bytes) (parts : List Bytes) : Prop where
  filled : parts ≠ []
  joined : value = join [separator] parts
  closed : ∀ part ∈ parts, scan part = .outside
  solid : ∀ part ∈ parts, Solid separator part

theorem solid_nil (separator : UInt8) : Solid separator [] := by
  intro front back shape
  exact absurd shape.symm (List.append_ne_nil_of_right_ne_nil front (List.cons_ne_nil separator back))

variable {separator : UInt8} {text out : Bytes}

variable {multibyte : Bool} {b : UInt8}

theorem solid_snoc (solid : Solid separator text) (last : b = separator → scan text ≠ .outside) :
    Solid separator (text ++ [b]) := by
  intro front back shape
  rcases List.eq_nil_or_concat back with rfl | ⟨tail, c, rfl⟩
  · obtain ⟨same, sep⟩ := List.append_inj' shape rfl
    cases sep
    exact same ▸ last rfl
  · rw [List.concat_eq_append, ← List.cons_append, ← List.append_assoc] at shape
    exact solid front tail (List.append_inj' shape rfl).1

theorem same_first {left right restLeft restRight : Bytes} (same : left ++ restLeft = right ++ restRight)
    (marked : restLeft = [] ∨ ∃ more, restLeft = separator :: more) (closed : scan left = .outside)
    (solid : Solid separator right) (short : left.length ≤ right.length) : left = right := by
  obtain ⟨tail, grown⟩ := List.prefix_of_prefix_length_le ⟨restLeft, same⟩ (List.prefix_append right restRight) short
  cases tail with
  | nil => rw [← grown, List.append_nil]
  | cons b more =>
    rw [← grown, List.append_assoc] at same
    have rest := List.append_cancel_left same
    rcases marked with rfl | ⟨behind, rfl⟩
    · cases rest
    · obtain ⟨rfl, _⟩ := List.cons.inj rest
      exact absurd closed (solid left more grown.symm)

theorem divided_cons {value first : Bytes} {rest : List Bytes} (divided : Divided separator value (first :: rest)) :
    (rest = [] ∧ value = first) ∨ ∃ behind, value = first ++ separator :: behind ∧ Divided separator behind rest := by
  have joined := divided.joined
  rw [join_cons] at joined
  by_cases alone : rest = []
  · rw [if_pos alone, List.append_nil] at joined
    exact .inl ⟨alone, joined⟩
  · rw [if_neg alone] at joined
    exact .inr ⟨_, joined, alone, rfl, fun part inside => divided.closed part (List.mem_cons_of_mem first inside),
      fun part inside => divided.solid part (List.mem_cons_of_mem first inside)⟩

theorem divided_more {first behind : Bytes} {rest : List Bytes} (closed : scan first = .outside)
    (solid : Solid separator first) (divided : Divided separator behind rest) :
    Divided separator (first ++ separator :: behind) (first :: rest) := by
  refine ⟨List.cons_ne_nil _ _, ?_, List.forall_mem_cons.mpr ⟨closed, divided.closed⟩,
    List.forall_mem_cons.mpr ⟨solid, divided.solid⟩⟩
  rw [join_cons, if_neg divided.filled, ← divided.joined]
  rfl

theorem divided_unique {separator : UInt8} {left : List Bytes} : ∀ (value : Bytes) (right : List Bytes),
    Divided separator value left → Divided separator value right → left = right := by
  induction left with
  | nil => exact fun _ _ one _ => absurd rfl one.filled
  | cons first rest ih =>
    intro value right one other
    cases right with
    | nil => exact absurd rfl other.filled
    | cons second others =>
      have tails : ∀ (part : Bytes) (parts : List Bytes), Divided separator value (part :: parts) →
          ∃ tail, value = part ++ tail ∧ (parts = [] ∧ tail = [] ∨ ∃ behind, tail = separator :: behind ∧
            Divided separator behind parts) := by
        intro part parts cuts
        rcases divided_cons cuts with ⟨rfl, rfl⟩ | ⟨behind, rfl, more⟩
        · exact ⟨[], (List.append_nil _).symm, .inl ⟨rfl, rfl⟩⟩
        · exact ⟨_, rfl, .inr ⟨behind, rfl, more⟩⟩
      obtain ⟨tail, shape, ending⟩ := tails first rest one
      obtain ⟨tail', shape', ending'⟩ := tails second others other
      have marked : ∀ (parts : List Bytes) (tail : Bytes), (parts = [] ∧ tail = [] ∨ ∃ behind,
          tail = separator :: behind ∧ Divided separator behind parts) → tail = [] ∨ ∃ more, tail = separator :: more :=
        fun parts tail ends => ends.imp And.right (fun ⟨behind, same, _⟩ => ⟨behind, same⟩)
      have firsts : first = second := by
        rcases Nat.le_total first.length second.length with short | short
        · exact same_first (shape ▸ shape') (marked _ _ ending)
            (one.closed _ List.mem_cons_self) (other.solid _ List.mem_cons_self) short
        · exact (same_first (shape' ▸ shape) (marked _ _ ending')
            (other.closed _ List.mem_cons_self) (one.solid _ List.mem_cons_self) short).symm
      subst firsts
      have tailsSame : tail = tail' := List.append_cancel_left (shape ▸ shape')
      subst tailsSame
      rcases ending with ⟨rfl, rfl⟩ | ⟨behind, rfl, more⟩
      · rcases ending' with ⟨rfl, _⟩ | ⟨_, none, _⟩
        · rfl
        · cases none
      · rcases ending' with ⟨_, none⟩ | ⟨behind', same, more'⟩
        · cases none
        · cases same
          rw [ih behind others more more']

-- tchar
def tokenByte (b : UInt8) : Bool :=
  within (byte 'a') (byte 'z') b || within (byte 'A') (byte 'Z') b || isDigit b ||
    (ascii "!#$%&'*+-.^_\x60|~").contains b

def isToken (text : Bytes) : Bool := !text.isEmpty && text.all tokenByte

def unescape : Bytes → Option Bytes
  | [] => some []
  | b :: rest =>
    if b = dquote then none
    else if b = backslash then
      match rest with
      | [] => none
      | c :: tail => (unescape tail).map (fun more => c :: more)
    else (unescape rest).map (fun more => b :: more)

def unwrap : Bytes → Option Bytes
  | [] => none
  | b :: rest => if b = dquote ∧ rest.getLast? = some dquote then some rest.dropLast else none

def valueText (raw : Bytes) : Option Bytes := if isToken raw then some raw else (unwrap raw).bind unescape

-- Backslashes stand before quotes and backslashes only.
def literal : Bytes → Bool
  | [] => true
  | b :: rest =>
    if b = backslash then
      match rest with
      | [] => false
      | c :: tail => decide (c = dquote ∨ c = backslash) && literal tail
    else literal rest

theorem unwrap_wrapped (body : Bytes) : unwrap (dquote :: (body ++ [dquote])) = some body := by
  rw [unwrap, List.getLast?_concat, if_pos ⟨rfl, rfl⟩, List.dropLast_concat]

theorem unescape_plain {plain : Bytes} (rest : Bytes) (ordinary : ∀ b ∈ plain, b ≠ dquote ∧ b ≠ backslash) :
    unescape (plain ++ rest) = (unescape rest).map (fun more => plain ++ more) := by
  induction plain with
  | nil => simp
  | cons b tail ih =>
    obtain ⟨quote, slash⟩ := ordinary b List.mem_cons_self
    rw [List.cons_append, unescape.eq_def]
    simp only [if_neg quote, if_neg slash]
    rw [ih (fun c inside => ordinary c (List.mem_cons_of_mem b inside)), Option.map_map]
    rfl

theorem unescape_pair (b : UInt8) (rest : Bytes) :
    unescape (backslash :: b :: rest) = (unescape rest).map (fun more => b :: more) := by
  rw [unescape, if_neg (by decide), if_pos rfl]

def Printable (text : Bytes) : Prop := ∀ b ∈ text, 0x20 ≤ b.toNat ∧ b.toNat ≤ 0x7E

def Step (text out tail : Bytes) : Prop := ∃ front meaning, text = front ++ tail ∧
  (∀ more, unescape (front ++ more) = (unescape more).map (fun rest => meaning ++ rest)) ∧
    (meaning = out ∧ (∀ more, literal (front ++ more) = literal more) ∨
      out.length < meaning.length ∧ ∀ more, literal (front ++ more) = false)

variable {kind : UInt8}

theorem step_pair (tail : Bytes) (kept : kind = dquote ∨ kind = backslash) (same : out = [kind]) :
    Step (backslash :: kind :: tail) out tail := by
  refine ⟨[backslash, kind], [kind], rfl, fun more => unescape_pair kind more, .inl ⟨same.symm, fun more => ?_⟩⟩
  simp only [List.cons_append, List.nil_append]
  rw [literal, if_pos rfl, decide_eq_true kept, Bool.true_and]

theorem step_digits {digits : Bytes} (tail : Bytes) (other : kind ≠ dquote ∧ kind ≠ backslash)
    (ordinary : ∀ b ∈ digits, b ≠ dquote ∧ b ≠ backslash) (short : out.length ≤ digits.length) :
    Step (backslash :: kind :: (digits ++ tail)) out tail := by
  refine ⟨backslash :: kind :: digits, kind :: digits, rfl, fun more => ?_,
    .inr ⟨Nat.lt_succ_of_le short, fun more => ?_⟩⟩
  · simp only [List.cons_append]
    rw [unescape_pair, unescape_plain more ordinary, Option.map_map]
    rfl
  · simp only [List.cons_append]
    rw [literal, if_pos rfl, decide_eq_false (not_or.mpr other), Bool.false_and]

theorem hex_ordinary : ∀ n < 256, (hexValue (UInt8.ofNat n)).isSome = true →
    UInt8.ofNat n ≠ dquote ∧ UInt8.ofNat n ≠ backslash := by
  decide +kernel

theorem octal_hex : ∀ n < 256, (Strconv.octalValue (UInt8.ofNat n)).isSome = true →
    (hexValue (UInt8.ofNat n)).isSome = true := by
  decide +kernel

variable {value : Nat}

theorem digits_some {base : Nat} {values : List (Option Nat)} (read : Strconv.digits base values = some value) :
    ∀ digit ∈ values, digit.isSome = true := by
  rw [Strconv.digits] at read
  generalize adding : (fun (total value : Option Nat) => _) = add at read
  have both : ∀ total digit, (add total digit).isSome = true → total.isSome = true ∧ digit.isSome = true := by
    subst adding
    intro total digit added
    cases total with
    | none => cases added
    | some total =>
      cases digit with
      | none => cases added
      | some digit => exact ⟨rfl, rfl⟩
  have loop : ∀ (values : List (Option Nat)) (start : Option Nat), values.foldl add start = some value →
      start.isSome = true ∧ ∀ digit ∈ values, digit.isSome = true := by
    intro values
    induction values with
    | nil =>
      rintro start rfl
      exact ⟨rfl, fun digit member => absurd member List.not_mem_nil⟩
    | cons first rest ih =>
      intro start folded
      obtain ⟨begun, later⟩ := ih _ folded
      refine ⟨(both start first begun).1, fun other member => ?_⟩
      rcases List.mem_cons.mp member with rfl | inside
      · exact (both start other begun).2
      · exact later other inside
  exact (loop values (some 0) read).2

theorem simple_escape_cases (simple : Strconv.simpleEscape kind = some value) :
    kind = backslash ∧ value = 92 ∨ value < 0x20 := by
  rw [Strconv.simpleEscape] at simple
  repeat' split at simple
  all_goals cases simple
  all_goals first
    | exact .inr (by decide)
    | exact .inl ⟨by assumption, rfl⟩

theorem appended_small (shown : Printable (Strconv.appended value multibyte)) :
    value < 0x80 ∨ multibyte = false := by
  by_contra wide
  rw [Strconv.appended, if_neg wide] at shown
  rw [not_or] at wide
  cases bytes : encodeRune value with
  | nil =>
    rw [encodeRune] at bytes
    repeat' split at bytes
    all_goals cases bytes
  | cons b rest =>
    have member : b ∈ encodeRune value := bytes ▸ List.mem_cons_self
    have range := shown b member
    rcases encode_rune_byte member with same | high <;> omega

theorem appended_short (shown : Printable (Strconv.appended value multibyte)) :
    (Strconv.appended value multibyte).length = 1 := by
  rw [Strconv.appended, if_pos (appended_small shown)]
  rfl

theorem digits_ordinary {base : Nat} {digitValue : UInt8 → Option Nat}
    (subset : ∀ b, (digitValue b).isSome = true → (hexValue b).isSome = true)
    (read : Strconv.digits base (text.map digitValue) = some value) : ∀ b ∈ text, b ≠ dquote ∧ b ≠ backslash := by
  intro b member
  have known := digits_some read _ (List.mem_map_of_mem member)
  have all := hex_ordinary b.toNat b.toNat_lt
  rw [UInt8.ofNat_toNat] at all
  exact all (subset b known)

theorem step_escape {count : Nat} {tail : Bytes} (other : kind ≠ dquote ∧ kind ≠ backslash)
    (ordinary : ∀ b ∈ tail.take count, b ≠ dquote ∧ b ≠ backslash) (enough : ¬ tail.length < count)
    (short : out.length = 1) (some : 0 < count) : Step (backslash :: kind :: tail) out (tail.drop count) := by
  have step := step_digits (tail.drop count) other ordinary (by rw [short, List.length_take]; omega)
  rwa [List.take_append_drop] at step

theorem unquote_escape_step {rest tail : Bytes}
    (read : Strconv.unquoteChar dquote (backslash :: kind :: rest) = some (value, multibyte, tail))
    (shown : Printable (Strconv.appended value multibyte)) :
    Step (backslash :: kind :: rest) (Strconv.appended value multibyte) tail := by
  have short := appended_short shown
  have octal : ∀ b, (Strconv.octalValue b).isSome = true → (hexValue b).isSome = true := by
    intro b known
    have all := octal_hex b.toNat b.toNat_lt
    rw [UInt8.ofNat_toNat] at all
    exact all known
  rw [Strconv.unquoteChar, if_neg (by decide), if_neg (by decide), if_neg (by decide)] at read
  cases simple : Strconv.simpleEscape kind with
  | some code =>
    rw [simple] at read
    cases read
    rcases simple_escape_cases simple with ⟨rfl, rfl⟩ | low
    · exact step_pair rest (.inr rfl) rfl
    · have range := shown (UInt8.ofNat value) (by rw [Strconv.appended, if_pos (.inr rfl)]; exact List.mem_cons_self)
      rw [UInt8.toNat_ofNat'] at range
      omega
  | none =>
    rw [simple] at read
    simp only at read
    by_cases hex : kind = byte 'x'
    · subst hex
      rw [if_pos rfl] at read
      split at read
      · cases read
      rename_i enough
      obtain ⟨code, digits, same⟩ := Option.map_eq_some_iff.mp read
      cases same
      exact step_escape (by decide) (digits_ordinary (fun _ known => known) digits) enough short (by decide)
    · rw [if_neg hex] at read
      by_cases unicode : kind = byte 'u' ∨ kind = byte 'U'
      · have other : kind ≠ dquote ∧ kind ≠ backslash := by
          rcases unicode with rfl | rfl <;> decide
        have some : 0 < (if kind = byte 'u' then 4 else 8) := by split <;> decide
        rw [if_pos unicode] at read
        generalize (if kind = byte 'u' then 4 else 8) = count at read some
        split at read
        · cases read
        rename_i enough
        split at read
        · rename_i code digits
          split at read
          · cases read
            exact step_escape other (digits_ordinary (fun _ known => known) digits) enough short some
          · cases read
        · cases read
      · rw [if_neg unicode] at read
        by_cases digit : within (byte '0') (byte '7') kind = true
        · rw [if_pos digit] at read
          split at read
          · cases read
          rename_i enough
          split at read
          · rename_i code digits
            split at read
            · cases read
              have ordinary := digits_ordinary octal digits
              exact step_escape (ordinary kind List.mem_cons_self)
                (fun b member => ordinary b (List.mem_cons_of_mem kind member)) enough short (by decide)
            · cases read
          · cases read
        · rw [if_neg digit] at read
          split at read
          · rename_i mark
            split at read
            · rename_i same
              cases read
              subst same
              exact step_pair rest (.inl rfl) rfl
            · cases read
          · cases read

theorem unquote_char_step {tail : Bytes} (read : Strconv.unquoteChar dquote text = some (value, multibyte, tail))
    (shown : Printable (Strconv.appended value multibyte)) : Step text (Strconv.appended value multibyte) tail := by
  cases text with
  | nil => cases read
  | cons c rest =>
    by_cases slash : c = backslash
    · subst slash
      cases rest with
      | nil => cases read
      | cons kind more => exact unquote_escape_step read shown
    · rw [Strconv.unquoteChar.eq_def] at read
      simp only at read
      split at read
      · cases read
      rename_i unquoted
      have other : c ≠ dquote := fun same => unquoted ⟨same, .inr trivial⟩
      split at read
      · rename_i high
        cases read
        have large := decode_large rest (UInt8.not_lt.mpr high)
        rcases appended_small shown with small | single
        · omega
        · cases single
      · cases read
        have same : Strconv.appended c.toNat false = [c] := by
          rw [Strconv.appended, if_pos (.inr rfl), UInt8.ofNat_toNat]
        rw [same]
        refine ⟨[c], [c], rfl, fun more => unescape_plain more ?_, .inl ⟨rfl, fun more => ?_⟩⟩
        · intro b member
          rw [List.mem_singleton.mp member]
          exact ⟨other, slash⟩
        · rw [List.singleton_append, literal.eq_def]
          exact if_neg slash

-- What Go reads up to the closing quote, beside what a quoted string stands for
-- there: they are the same exactly when no backslash means more than the next
-- byte.
theorem unquote_body_reads {fuel : Nat} : ∀ (text out rest : Bytes),
    Strconv.unquoteBody dquote fuel text = some (out, rest) → Printable out →
    ∃ body meaning, text = body ++ dquote :: rest ∧ unescape body = some meaning ∧ out.length ≤ meaning.length ∧
      (meaning = out ↔ literal body = true) := by
  induction fuel with
  | zero =>
    intro text out rest read
    cases read
  | succ fuel ih =>
    intro text out rest read shown
    cases text with
    | nil => cases read
    | cons c more =>
      rw [Strconv.unquoteBody.eq_def] at read
      simp only at read
      split at read
      · rename_i closing
        cases read
        exact ⟨[], [], by rw [closing]; rfl, rfl, Nat.le_refl _, iff_of_true rfl rfl⟩
      · split at read
        · cases read
        · split at read
          · cases read
          · rename_i value multibyte tail first
            rw [if_neg (by decide)] at read
            obtain ⟨⟨later, behind⟩, followed, same⟩ := Option.map_eq_some_iff.mp read
            simp only [Prod.mk.injEq] at same
            obtain ⟨rfl, rfl⟩ := same
            obtain ⟨front, meaning, shape, escapes, kind⟩ := unquote_char_step first
              (fun b member => shown b (List.mem_append_left _ member))
            obtain ⟨body, meant, tailShape, unescaped, long, agree⟩ := ih tail later behind followed
              (fun b member => shown b (List.mem_append_right _ member))
            refine ⟨front ++ body, meaning ++ meant, by rw [shape, tailShape, List.append_assoc],
              by rw [escapes, unescaped]; rfl, ?_, ?_⟩
            · rw [List.length_append, List.length_append]
              rcases kind with ⟨rfl, _⟩ | ⟨shorter, _⟩ <;> omega
            · rcases kind with ⟨rfl, same⟩ | ⟨shorter, never⟩
              · rw [same, ← agree, List.append_cancel_left_eq]
              · refine iff_of_false (fun equal => ?_) (by rw [never]; exact Bool.false_ne_true)
                have lengths := congrArg List.length equal
                rw [List.length_append, List.length_append] at lengths
                omega

-- OWS of the grammar, at both ends.
def blank (b : UInt8) : Bool := b = 0x20 || b = 0x09

def trimOws (text : Bytes) : Bytes := (text.dropWhile blank).rdropWhile blank

structure Ended (text : Bytes) : Prop where
  first : ∃ b rest, solid b = true ∧ text = b :: rest
  last : ∃ b rest, solid b = true ∧ text.reverse = b :: rest

theorem Ended.append {left right : Bytes} (middle : Bytes) (one : Ended left) (other : Ended right) :
    Ended (left ++ (middle ++ right)) := by
  obtain ⟨b, rest, kept, rfl⟩ := one.first
  obtain ⟨c, front, kept', shape⟩ := other.last
  refine ⟨⟨b, _, kept, rfl⟩, c, front ++ (middle.reverse ++ (b :: rest).reverse), kept', ?_⟩
  rw [List.reverse_append, List.reverse_append, shape]
  simp

theorem ended_join {separator : Bytes} {parts : List Bytes} (filled : parts ≠ []) (all : ∀ part ∈ parts, Ended part) :
    Ended (join separator parts) := by
  induction parts with
  | nil => exact absurd rfl filled
  | cons part rest ih =>
    have first := all part List.mem_cons_self
    rw [join_cons]
    split
    case isTrue => rwa [List.append_nil]
    case isFalse more =>
      exact first.append separator (ih more (fun part later => all part (List.mem_cons_of_mem _ later)))

theorem token_solid (token : tokenByte b = true) : solid b = true := by
  have every : ∀ n : Fin 256, tokenByte (UInt8.ofNat n) = true → solid (UInt8.ofNat n) = true := by decide +kernel
  have here := every ⟨b.toNat, b.toNat_lt⟩
  rw [UInt8.ofNat_toNat] at here
  exact here token

theorem ended_token {raw : Bytes} (token : isToken raw = true) : Ended raw := by
  rw [isToken, Bool.and_eq_true, List.all_eq_true] at token
  have kept : ∀ b ∈ raw, solid b = true := fun b member => token_solid (token.2 b member)
  refine ⟨?_, ?_⟩
  · cases raw with
    | nil => cases token.1
    | cons b rest => exact ⟨b, rest, kept b List.mem_cons_self, rfl⟩
  · cases backward : raw.reverse with
    | nil =>
      rw [List.reverse_eq_nil_iff.mp backward] at token
      cases token.1
    | cons b rest => exact ⟨b, rest, kept b (List.mem_reverse.mp (backward ▸ List.mem_cons_self)), rfl⟩

theorem ended_value {raw : Bytes} (meant : (valueText raw).isSome = true) : Ended raw := by
  rw [valueText] at meant
  split at meant
  case isTrue token => exact ended_token token
  case isFalse =>
    cases raw with
    | nil => cases meant
    | cons b rest =>
      rw [unwrap] at meant
      split at meant
      case isTrue wrapped =>
        obtain ⟨rfl, closing⟩ := wrapped
        obtain ⟨front, rfl⟩ := List.getLast?_eq_some_iff.mp closing
        exact ⟨⟨dquote, _, by decide, rfl⟩, dquote, front.reverse ++ [dquote], by decide, by simp⟩
      case isFalse => cases meant

theorem blank_space (skipped : blank b = true) : space1 b = true := by
  rw [blank, Bool.or_eq_true, decide_eq_true_eq, decide_eq_true_eq] at skipped
  rcases skipped with rfl | rfl <;> decide

theorem trim_left_drop (text : Bytes) : trimLeft (text.dropWhile blank) = trimLeft text := by
  induction text with
  | nil => rfl
  | cons b rest ih =>
    rw [List.dropWhile_cons]
    split
    case isFalse => rfl
    case isTrue skipped =>
      rw [ih]
      cases rest with
      | nil => simp [trimLeft, blank_space skipped]
      | cons c rest => cases rest <;> simp only [trimLeft, blank_space skipped, if_true]

theorem trim_right_drop (text : Bytes) : trimRightReversed (text.dropWhile blank) = trimRightReversed text := by
  induction text with
  | nil => rfl
  | cons b rest ih =>
    rw [List.dropWhile_cons]
    split
    case isFalse => rfl
    case isTrue skipped =>
      rw [ih]
      cases rest with
      | nil => simp [trimRightReversed, blank_space skipped]
      | cons c rest => cases rest <;> simp only [trimRightReversed, blank_space skipped, if_true]

theorem trim_left_solid (kept : solid b = true) (rest : Bytes) : trimLeft (b :: rest) = b :: rest := by
  have range := solid_range kept
  generalize shape : b :: rest = text
  fun_cases trimLeft text <;> grind [→ space1_range, → space2_range, → space3_range]

theorem trim_right_solid (kept : solid b = true) (rest : Bytes) :
    trimRightReversed (b :: rest) = b :: rest := by
  have range := solid_range kept
  generalize shape : b :: rest = text
  fun_cases trimRightReversed text <;> grind [→ space1_range, → space2_range, → space3_range]

theorem trim_space_ows (ended : Ended (trimOws text)) : trimSpace text = trimOws text := by
  obtain ⟨b, rest, kept, shape⟩ := ended.first
  obtain ⟨c, front, kept', backward⟩ := ended.last
  have left : trimLeft text = text.dropWhile blank := by
    obtain ⟨tail, whole⟩ := List.rdropWhile_prefix blank (l := text.dropWhile blank)
    rw [trimOws] at shape
    rw [← trim_left_drop, ← whole, shape]
    exact trim_left_solid kept _
  rw [trimSpace, left, trimRight, ← trim_right_drop, trimOws, List.rdropWhile]
  rw [trimOws, List.rdropWhile, List.reverse_reverse] at backward
  rw [backward, trim_right_solid kept']

theorem Ended.trimmed (ended : Ended text) : trimSpace text = text := by
  obtain ⟨b, rest, kept, rfl⟩ := ended.first
  obtain ⟨c, front, kept', backward⟩ := ended.last
  rw [trimSpace, trim_left_solid kept, trimRight, backward, trim_right_solid kept', ← backward, List.reverse_reverse]

end QuotedText
